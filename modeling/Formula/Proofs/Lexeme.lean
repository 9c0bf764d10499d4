import Formula.Token.Lexeme
import Mathlib.Data.List.Chain

/-!
# Texts and their pieces

Splitting a text is the inverse of putting pieces together, as long as the pieces are of the right
form and no two runs stand side by side: such pieces are found again in the text they spell. The
pieces of any text are of this kind, so that a text and its pieces determine each other.
-/

namespace Formula

theorem Symbol.isOperand_character (symbol : Symbol) :
    Alphabet.isOperand symbol.character = false := by
  rcases symbol with op | side
  · cases op <;> decide
  · cases side <;> decide

/-- The first element of a list that lacks some property, with the elements around it. -/
theorem exists_first_not {α : Type} {p : α → Prop} {xs : List α} (hnot : ∃ x ∈ xs, ¬ p x) :
    ∃ before x after, xs = before ++ x :: after ∧ (∀ y ∈ before, p y) ∧ ¬ p x := by
  classical
  have hsome : (xs.find? fun x => ¬ p x).isSome = true := by simpa using hnot
  obtain ⟨x, hfind⟩ := Option.isSome_iff_exists.mp hsome
  obtain ⟨hx, before, after, hxs, hbefore⟩ := List.find?_eq_some_iff_append.mp hfind
  exact ⟨before, x, after, hxs, by simpa using hbefore, by simpa using hx⟩

namespace Lexeme

/-! ## Pieces and their neighbours -/

/-- A run has characters and all of them are of operands; a stray character is of neither kind. -/
def WellFormed : Lexeme → Prop
  | run characters => characters ≠ [] ∧ ∀ c ∈ characters, Alphabet.isOperand c = true
  | symbol _ => True
  | stray c => Alphabet.isOperand c = false ∧ Symbol.ofChar? c = none

def isRun : Lexeme → Bool
  | run _ => true
  | symbol _ | stray _ => false

/-- Two pieces may stand side by side. Two runs would be one. -/
def Apart (left right : Lexeme) : Prop := ¬ (left.isRun = true ∧ right.isRun = true)

/-- Whether an operand or something in parentheses begins with a piece. -/
def opens : Lexeme → Bool
  | run _ => true
  | symbol content => content = .parenthesis .opening
  | stray _ => false

/-- Whether an operand or something in parentheses ends with a piece. -/
def closes : Lexeme → Bool
  | run _ => true
  | symbol content => content = .parenthesis .closing
  | stray _ => false

/-- Two pieces do not make operands or groups meet without an operator between them. -/
def Separate (left right : Lexeme) : Prop := ¬ (left.closes = true ∧ right.opens = true)

/-- An operand and a parenthesis meet that does not go around it. -/
def Meets (left right : Lexeme) : Prop :=
  left.closes = true ∧ right.opens = true ∧ left.isRun ≠ right.isRun

/-- Two pieces may stand side by side in a text that has tokens: where operands or groups meet
without an operator between them, both of them are groups. -/
def Compatible (left right : Lexeme) : Prop :=
  left.closes = true → right.opens = true → left.isRun = false ∧ right.isRun = false

theorem Separate.compatible {left right : Lexeme} (hseparate : Separate left right) :
    Compatible left right := fun hcloses hopens => absurd ⟨hcloses, hopens⟩ hseparate

theorem Compatible.apart {left right : Lexeme} (hcompatible : Compatible left right) :
    Apart left right := by
  rintro ⟨hleft, hright⟩
  cases left <;> cases right <;> simp [isRun] at hleft hright
  cases (hcompatible rfl rfl).1

theorem Separate.opens_eq_false {left right : Lexeme} (hseparate : Separate left right)
    (hcloses : left.closes = true) : right.opens = false :=
  Bool.eq_false_iff.mpr fun hopens => hseparate ⟨hcloses, hopens⟩

theorem spelling_ne_nil {piece : Lexeme} (hwell : piece.WellFormed) : piece.spelling ≠ [] := by
  cases piece with
  | run characters => exact hwell.1
  | symbol content => simp [spelling]
  | stray c => simp [spelling]

/-- Operand characters are found in runs only. -/
theorem isOperand_of_mem_spelling {piece : Lexeme} (hwell : piece.WellFormed)
    (hpiece : piece.isRun = false) : ∀ c ∈ piece.spelling, Alphabet.isOperand c = false := by
  cases piece with
  | run characters => simp [isRun] at hpiece
  | symbol content => simp [spelling, Symbol.isOperand_character]
  | stray c => simpa [spelling] using hwell.1

/-! ## The pieces of a text -/

theorem wellFormed_single {c : Char} (hc : Alphabet.isOperand c = false) :
    (single c).WellFormed := by
  unfold single
  cases found : Symbol.ofChar? c with
  | none => exact ⟨hc, found⟩
  | some content => trivial

theorem apart_single (c : Char) (piece : Lexeme) : Apart (single c) piece := by
  unfold single
  cases Symbol.ofChar? c <;> simp [Apart, isRun]

theorem extend_of_not_isRun (c : Char) {pieces : List Lexeme}
    (hpieces : ∀ piece ∈ pieces.head?, piece.isRun = false) :
    extend c pieces = run [c] :: pieces := by
  rcases pieces with _ | ⟨characters | content | d, rest⟩
  · rfl
  · exact absurd (hpieces (run characters) rfl) (by simp [isRun])
  · rfl
  · rfl

theorem wellFormed_extend {c : Char} (hc : Alphabet.isOperand c = true) {pieces : List Lexeme}
    (hpieces : ∀ piece ∈ pieces, piece.WellFormed) :
    ∀ piece ∈ extend c pieces, piece.WellFormed := by
  intro piece hpiece
  fun_cases extend c pieces with
  | case1 characters rest =>
      simp only [extend, List.mem_cons] at hpiece
      rcases hpiece with rfl | hrest
      · obtain ⟨_, hcharacters⟩ := hpieces _ List.mem_cons_self
        refine ⟨List.cons_ne_nil _ _, ?_⟩
        simpa [hc] using hcharacters
      · exact hpieces piece (List.mem_cons_of_mem _ hrest)
  | case2 =>
      simp only [extend, List.mem_cons] at hpiece
      rcases hpiece with rfl | hrest
      · exact ⟨List.cons_ne_nil _ _, by simpa using hc⟩
      · exact hpieces piece hrest

theorem isChain_extend (c : Char) {pieces : List Lexeme} (hpieces : pieces.IsChain Apart) :
    (extend c pieces).IsChain Apart := by
  rcases pieces with _ | ⟨characters | content | d, rest⟩
  · exact List.isChain_singleton _
  · rw [List.isChain_cons] at hpieces
    exact List.isChain_cons.mpr ⟨fun piece hpiece => hpieces.1 piece hpiece, hpieces.2⟩
  · exact List.isChain_cons_cons.mpr ⟨by simp [Apart, isRun], hpieces⟩
  · exact List.isChain_cons_cons.mpr ⟨by simp [Apart, isRun], hpieces⟩

theorem wellFormed_of_mem_split {text : List Char} :
    ∀ piece ∈ split text, piece.WellFormed := by
  induction text with
  | nil => simp [split]
  | cons c rest ih =>
      unfold split
      split
      next hc => exact wellFormed_extend hc ih
      next hc =>
        exact List.forall_mem_cons.mpr ⟨wellFormed_single (Bool.eq_false_iff.mpr hc), ih⟩

theorem isChain_split (text : List Char) : (split text).IsChain Apart := by
  induction text with
  | nil => exact List.isChain_nil
  | cons c rest ih =>
      unfold split
      split
      next => exact isChain_extend c ih
      next => exact List.isChain_cons.mpr ⟨fun piece _ => apart_single c piece, ih⟩

/-! ## The text of pieces -/

theorem split_run_append {characters rest : List Char} (hrun : (run characters).WellFormed)
    (hrest : ∀ piece ∈ (split rest).head?, Apart (run characters) piece) :
    split (characters ++ rest) = run characters :: split rest := by
  obtain ⟨hne, hcharacters⟩ := hrun
  induction characters with
  | nil => exact absurd rfl hne
  | cons c tail ih =>
      have hc := hcharacters c List.mem_cons_self
      rw [List.cons_append, split, if_pos hc]
      cases tail with
      | nil =>
          refine extend_of_not_isRun c fun piece hpiece => ?_
          simpa [Apart, isRun] using hrest piece hpiece
      | cons d tail =>
          rw [ih (fun piece hpiece => hrest piece hpiece) (List.cons_ne_nil d tail)
            fun e he => hcharacters e (List.mem_cons_of_mem c he)]
          rfl

theorem split_symbol_cons (content : Symbol) (rest : List Char) :
    split (content.character :: rest) = symbol content :: split rest := by
  rw [split, if_neg (by simp [Symbol.isOperand_character]), single, Symbol.ofChar?_character]

theorem split_stray_cons {c : Char} (hstray : (stray c).WellFormed) (rest : List Char) :
    split (c :: rest) = stray c :: split rest := by
  rw [split, if_neg (by simp [hstray.1]), single, hstray.2]

/-- Pieces of the right form that may stand side by side are the pieces of the text they spell. -/
theorem split_spelling {pieces : List Lexeme} (hwell : ∀ piece ∈ pieces, piece.WellFormed)
    (hchain : pieces.IsChain Apart) : split (pieces.flatMap spelling) = pieces := by
  induction pieces with
  | nil => rfl
  | cons piece rest ih =>
      obtain ⟨hpiece, hrest⟩ := List.forall_mem_cons.mp hwell
      obtain ⟨hapart, htail⟩ := List.isChain_cons.mp hchain
      have hsplit := ih hrest htail
      rw [List.flatMap_cons]
      cases piece with
      | run characters =>
          rw [spelling, split_run_append hpiece (by rwa [hsplit]), hsplit]
      | symbol content =>
          rw [spelling, List.singleton_append, split_symbol_cons, hsplit]
      | stray c =>
          rw [spelling, List.singleton_append, split_stray_cons hpiece, hsplit]

/-! ## Parts of a text -/

theorem extend_append (c : Char) {pieces : List Lexeme} (hne : pieces ≠ []) (later : List Lexeme) :
    extend c (pieces ++ later) = extend c pieces ++ later := by
  rcases pieces with _ | ⟨_ | _ | _, rest⟩
  · exact absurd rfl hne
  · rfl
  · rfl
  · rfl

theorem split_ne_nil {text : List Char} (hne : text ≠ []) : split text ≠ [] := by
  intro hnil
  have hspell := spell_split text
  simp [hnil] at hspell
  exact hne hspell

/-- A text begins with a run exactly if its first character is one of operands. -/
theorem isRun_of_mem_head?_split {text : List Char}
    (hhead : ∀ c ∈ text.head?, Alphabet.isOperand c = false) :
    ∀ piece ∈ (split text).head?, piece.isRun = false := by
  cases text with
  | nil => simp [split]
  | cons c rest =>
      have hc := hhead c rfl
      intro piece hpiece
      rw [split, if_neg (by simp [hc])] at hpiece
      obtain rfl := Option.some.inj hpiece
      unfold single
      cases Symbol.ofChar? c <;> rfl

/-- A text falls into parts that are split by themselves wherever no two operand characters meet. -/
theorem split_append {before after : List Char}
    (hapart : (∀ c ∈ before.getLast?, Alphabet.isOperand c = false) ∨
      ∀ c ∈ after.head?, Alphabet.isOperand c = false) :
    split (before ++ after) = split before ++ split after := by
  induction before with
  | nil => rfl
  | cons c rest ih =>
      rw [List.cons_append, split, split]
      cases rest with
      | nil =>
          split
          next hc =>
            have hafter := hapart.resolve_left fun hbefore => by simp [hbefore c rfl] at hc
            exact extend_of_not_isRun c (isRun_of_mem_head?_split hafter)
          next => rfl
      | cons d rest =>
          rw [ih (by simpa using hapart)]
          split
          next => exact extend_append c (split_ne_nil (List.cons_ne_nil d rest)) _
          next => rfl

/-- A row of operand characters is one piece if none follows it. -/
theorem split_run {characters rest : List Char} (hrun : (run characters).WellFormed)
    (hrest : ∀ c ∈ rest.head?, Alphabet.isOperand c = false) :
    split (characters ++ rest) = run characters :: split rest := by
  apply split_run_append hrun
  intro piece hpiece
  simp [Apart, isRun_of_mem_head?_split hrest piece hpiece]

/-- A symbol divides a text into parts that are split by themselves. -/
theorem split_append_symbol (content : Symbol) (before after : List Char) :
    split (before ++ content.character :: after) =
      split before ++ symbol content :: split after := by
  rw [split_append (.inr (by simp [Symbol.isOperand_character])), split_symbol_cons]

/-- Each end of the pieces of a text is what its own spelling is split into. -/
theorem split_spelling_of_split {text : List Char} {before after : List Lexeme}
    (hsplit : split text = before ++ after) :
    split (before.flatMap spelling) = before ∧ split (after.flatMap spelling) = after := by
  have hwell := @wellFormed_of_mem_split text
  have hchain := isChain_split text
  rw [hsplit] at hwell hchain
  rw [List.isChain_append] at hchain
  rw [List.forall_mem_append] at hwell
  exact ⟨split_spelling hwell.1 hchain.1, split_spelling hwell.2 hchain.2.1⟩

/-- Two symbols that are neighbours among the pieces of a text are neighbours in the text. -/
theorem infix_of_split {text : List Char} {first second : Symbol} {before after : List Lexeme}
    (hsplit : split text = before ++ symbol first :: symbol second :: after) :
    [first.character, second.character] <:+: text := by
  refine ⟨before.flatMap spelling, after.flatMap spelling, ?_⟩
  rw [← spell_split text, hsplit]
  simp [spelling]

end Lexeme

end Formula
