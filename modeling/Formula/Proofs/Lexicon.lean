import Formula.Proofs.Occurrence
import Formula.Proofs.Offsets

/-!
# The lexical language

Which texts have tokens can be said about their characters alone. All of them belong to one of the
two alphabets, a longest row of operand characters that begins like a number is a numeral, and no
such row stands right before an opening or right behind a closing parenthesis. The tokens are then
the only ones that the text can be read as from left to right.
-/

namespace Formula

theorem Symbol.ofChar?_eq_none_iff {c : Char} :
    ofChar? c = none ↔ c ∉ ['+', '-', '*', '/', '^', '(', ')'] := by
  change _ ↔ c ∉ all.map character
  simp [ofChar?]

/-- A row of operand characters stands for something unless it begins like a number and is none. -/
theorem Operand.exists_denoted_iff {characters : List Char}
    (hrun : (Lexeme.run characters).WellFormed) :
    (∃ content, Denoted characters content) ↔
      (characters.head?.any Alphabet.startsNumber = true →
        ∃ numeral : Numeral, numeral.characters = characters) := by
  constructor
  · rintro ⟨content, numeral | name⟩ hstart
    · exact ⟨numeral, rfl⟩
    · simp [name.not_startsNumber] at hstart
  · intro hnumeral
    by_cases hstart : characters.head?.any Alphabet.startsNumber = true
    · obtain ⟨numeral, rfl⟩ := hnumeral hstart
      exact ⟨_, .numeral numeral⟩
    · exact ⟨_, .name ⟨characters, hrun.1, hrun.2, Bool.eq_false_iff.mpr hstart⟩⟩

/-! ## Pieces that can be read -/

namespace Lexeme

theorem stray_mem_split_iff {text : List Char} {c : Char} :
    .stray c ∈ split text ↔ c ∈ text ∧ (stray c).WellFormed := by
  constructor
  · intro hmem
    refine ⟨?_, wellFormed_of_mem_split _ hmem⟩
    rw [← spell_split text]
    exact List.mem_flatMap.mpr ⟨_, hmem, List.mem_singleton_self c⟩
  · rintro ⟨hmem, hstray⟩
    obtain ⟨before, after, rfl⟩ := List.append_of_mem hmem
    rw [split_append (.inr (by simpa using hstray.1)), split_stray_cons hstray]
    simp

theorem exists_reads_iff {pieces : List Lexeme} :
    (∃ tokens, List.Forall₂ Reads pieces tokens) ↔ ∀ piece ∈ pieces, ∃ token, Reads piece token := by
  induction pieces with
  | nil => simp
  | cons piece rest ih =>
      rw [List.forall_mem_cons, ← ih]
      simp only [List.forall₂_cons_left_iff]
      constructor
      · rintro ⟨_, token, tokens, hread, hreads, rfl⟩
        exact ⟨⟨token, hread⟩, tokens, hreads⟩
      · rintro ⟨⟨token, hread⟩, tokens, hreads⟩
        exact ⟨_, token, tokens, hread, hreads, rfl⟩

/-- The pieces of a text can be read exactly if its characters belong to the two alphabets and what
begins like a number is one. -/
theorem exists_reads_split_iff {text : List Char} :
    (∃ tokens, List.Forall₂ Reads (split text) tokens) ↔
      (∀ c ∈ text, Alphabet.isOperand c = true ∨ c ∈ ['+', '-', '*', '/', '^', '(', ')']) ∧
      ∀ before characters after, MaximalRun text before characters after →
        characters.head?.any Alphabet.startsNumber = true →
        ∃ numeral : Numeral, numeral.characters = characters := by
  rw [exists_reads_iff]
  constructor
  · intro hreads
    constructor
    · intro c hc
      by_contra hneither
      rw [not_or, ← Symbol.ofChar?_eq_none_iff, Bool.not_eq_true] at hneither
      obtain ⟨token, hread⟩ := hreads _ (stray_mem_split_iff.mpr ⟨hc, hneither⟩)
      cases hread
    · intro before characters after hrun
      obtain ⟨token, hread⟩ := hreads _ (MaximalRun.exists_iff_mem_split.mp ⟨_, _, hrun⟩)
      cases hread with
      | run hread =>
          rw [← Operand.exists_denoted_iff hrun.wellFormed]
          exact ⟨_, (Operand.read_eq_ok_iff hrun.wellFormed).mp hread⟩
  · rintro ⟨hcharacters, hruns⟩ piece hpiece
    cases piece with
    | run characters =>
        obtain ⟨before, after, hrun⟩ := MaximalRun.exists_iff_mem_split.mpr hpiece
        obtain ⟨content, hdenoted⟩ := (Operand.exists_denoted_iff hrun.wellFormed).mpr
          (hruns before characters after hrun)
        exact ⟨_, .run ((Operand.read_eq_ok_iff hrun.wellFormed).mpr hdenoted)⟩
    | symbol content => exact ⟨_, .symbol content⟩
    | stray c =>
        obtain ⟨hc, hoperand, hsymbol⟩ := stray_mem_split_iff.mp hpiece
        rw [Symbol.ofChar?_eq_none_iff] at hsymbol
        rcases hcharacters c hc with h | h
        · simp [hoperand] at h
        · exact absurd h hsymbol

/-- The pieces of a text may stand side by side exactly if no operand touches a parenthesis from
outside. -/
theorem isChain_compatible_split_iff {text : List Char} :
    (split text).IsChain Compatible ↔
      ∀ before characters after, MaximalRun text before characters after →
        after.head? ≠ some '(' ∧ before.getLast? ≠ some ')' := by
  rw [List.isChain_iff_forall_rel_of_append_cons_cons]
  constructor
  · intro hchain before characters after hrun
    constructor
    · intro hopening
      obtain ⟨rest, rfl⟩ := List.head?_eq_some_iff.mp hopening
      have hsplit := hrun.split_eq
      rw [show '(' = (Symbol.parenthesis .opening).character from rfl, split_symbol_cons] at hsplit
      exact absurd (hchain hsplit rfl rfl).1 (by simp [isRun])
    · intro hclosing
      obtain ⟨rest, rfl⟩ := List.getLast?_eq_some_iff.mp hclosing
      have hsplit := hrun.split_eq
      rw [show ')' = (Symbol.parenthesis .closing).character from rfl, split_append_symbol,
        List.append_assoc] at hsplit
      exact absurd (hchain hsplit rfl rfl).2 (by simp [isRun])
  · intro hruns left right earlier later hsplit hcloses hopens
    have hapart := List.isChain_iff_forall_rel_of_append_cons_cons.mp (isChain_split text) hsplit
    cases left with
    | stray c => simp [closes] at hcloses
    | run characters =>
        cases right with
        | stray c => simp [opens] at hopens
        | run characters' => exact absurd ⟨rfl, rfl⟩ hapart
        | symbol content =>
            obtain rfl : content = .parenthesis .opening := by simpa [opens] using hopens
            exact absurd rfl (hruns _ _ _ (MaximalRun.of_split hsplit)).1
    | symbol content =>
        cases right with
        | stray c => simp [opens] at hopens
        | symbol content' => exact ⟨rfl, rfl⟩
        | run characters =>
            obtain rfl : content = .parenthesis .closing := by simpa [closes] using hcloses
            rw [List.append_cons] at hsplit
            refine absurd ?_ (hruns _ _ _ (MaximalRun.of_split hsplit)).2
            simp [spelling, Symbol.character, Side.character]

end Lexeme

/-! ## Reading from left to right -/

namespace Token

/-- Tokens that characters can be read as from left to right: one for each symbol, and one for each
row of operand characters that is as long as possible, for what that row stands for. -/
inductive Reading : List Char → List Token → Prop where
  | nil : Reading [] []
  | symbol (content : Symbol) {rest : List Char} {tokens : List Token}
      (hrest : Reading rest tokens) :
      Reading (content.character :: rest) (.symbol content :: tokens)
  | operand {characters rest : List Char} {content : Operand} {tokens : List Token}
      (hdenoted : Operand.Denoted characters content)
      (hends : ∀ c ∈ rest.head?, Alphabet.isOperand c = false) (hrest : Reading rest tokens) :
      Reading (characters ++ rest) (.operand content :: tokens)

variable {text : List Char} {tokens : List Token}

theorem Reading.reads_split (hreading : Reading text tokens) :
    List.Forall₂ Lexeme.Reads (Lexeme.split text) tokens := by
  induction hreading with
  | nil => exact .nil
  | symbol content hrest ih =>
      rw [Lexeme.split_symbol_cons]
      exact .cons (.symbol content) ih
  | operand hdenoted hends hrest ih =>
      have hrun := hdenoted.wellFormed
      rw [Lexeme.split_run hrun hends]
      exact .cons (.run ((Operand.read_eq_ok_iff hrun).mpr hdenoted)) ih

theorem reading_of_reads {pieces : List Lexeme} (hreads : List.Forall₂ Lexeme.Reads pieces tokens)
    (hsplit : Lexeme.split text = pieces) : Reading text tokens := by
  induction hreads generalizing text with
  | nil =>
      have htext := Lexeme.spell_split text
      rw [hsplit] at htext
      exact htext ▸ .nil
  | @cons piece token pieces tokens hread hreads ih =>
      have htext := Lexeme.spell_split text
      have hrest := (@Lexeme.split_spelling_of_split text [piece] pieces hsplit).2
      rw [hsplit, List.flatMap_cons] at htext
      rw [← htext]
      cases hread with
      | symbol content => exact .symbol content (ih hrest)
      | @run characters content hread =>
          have hrun : MaximalRun text [] characters (pieces.flatMap Lexeme.spelling) :=
            @MaximalRun.of_split text characters [] pieces hsplit
          exact .operand ((Operand.read_eq_ok_iff hrun.wellFormed).mp hread) hrun.after_begins
            (ih hrest)

theorem reading_iff :
    Reading text tokens ↔ List.Forall₂ Lexeme.Reads (Lexeme.split text) tokens :=
  ⟨Reading.reads_split, fun hreads => reading_of_reads hreads rfl⟩

theorem Reading.unique {others : List Token} (hreading : Reading text tokens)
    (hreading' : Reading text others) : tokens = others := by
  rw [reading_iff, ← outcome_ofLexemes_eq_ok_iff] at hreading hreading'
  exact Except.ok.inj (hreading.symm.trans hreading')

/-- A text has tokens exactly if its characters belong to the two alphabets, each longest row of
operand characters that begins like a number is a numeral, and none of these rows stands right
before an opening or right behind a closing parenthesis. The tokens are then the only ones that the
text can be read as from left to right. A scanner that cuts operands out of the text by their byte
offsets comes to the same and never cuts where it cannot. -/
theorem tokenize_lexicon (text : String) :
    ((∃ tokens, tokenize text = .ok tokens) ↔
      (∀ c ∈ text.toList,
        Alphabet.isOperand c = true ∨ c ∈ ['+', '-', '*', '/', '^', '(', ')']) ∧
      (∀ before characters after, MaximalRun text.toList before characters after →
        characters.head?.any Alphabet.startsNumber = true →
        ∃ numeral : Numeral, numeral.characters = characters) ∧
      ∀ before characters after, MaximalRun text.toList before characters after →
        after.head? ≠ some '(' ∧ before.getLast? ≠ some ')') ∧
    (∀ tokens, tokenize text = .ok tokens →
      ∀ others, Reading text.toList others ↔ others = tokens) ∧
    scanByOffsets? text = some (scan text) := by
  refine ⟨?_, ?_, scanByOffsets?_eq text⟩
  · simp only [tokenize_eq_ok_iff, exists_and_right, Lexeme.exists_reads_split_iff,
      Lexeme.isChain_compatible_split_iff, and_assoc]
  · intro tokens htokens others
    have hreading := reading_iff.mpr (tokenize_eq_ok_iff.mp htokens).1
    constructor
    · intro hother
      exact hother.unique hreading
    · rintro rfl
      exact hreading

end Token

end Formula
