import Formula.Proofs.Acceptance
import Formula.Proofs.Layout
import Formula.Proofs.Occurrence

/-!
# Tokens and the texts they spell

The tokens of a text can be told from other rows of tokens without the text: operands are kept apart
by operators, parentheses enclose them, names and numbers are of the form that a formula allows. The
main statement says this, and that tokens of this kind are read again from the text they spell when
put side by side. Only an infinity is not read again: its own text is that of a name.
-/

namespace Formula

namespace Operand

/-- What a text can hold as an operand: a number without the sign "minus", or a name of operand
characters that does not begin like a number. -/
def Legible : Operand → Prop
  | number value => Rank.isNegative value = false ∧ value.isNaN = false
  | name word =>
      word.toList ≠ [] ∧ (∀ c ∈ word.toList, Alphabet.isOperand c = true) ∧
        word.toList.head?.any Alphabet.startsNumber = false

variable {content content' : Operand}

theorem Denoted.legible {characters : List Char} (hdenoted : Denoted characters content) :
    content.Legible := by
  cases hdenoted with
  | numeral numeral =>
      have hrank := numeral.decimal.rank_le_infinity
      obtain ⟨hvalue, hsign⟩ := Rank.toBits_toFloat false hrank
      refine ⟨hsign, Bool.eq_false_iff.mpr fun hnan => ?_⟩
      have habove := Rank.isNaN_iff.mp hnan
      rw [Numeral.value, hvalue] at habove
      exact Nat.not_lt.mpr hrank habove
  | name name =>
      rw [Legible, String.toList_ofList]
      exact ⟨name.characters_ne_nil, name.isOperand, name.not_startsNumber⟩

/-- An operand is denoted by its own text, if it is not an infinity. -/
theorem Legible.denoted_text (hlegible : content.Legible)
    (hfinite : ∀ value, content = .number value → value.isFinite = true) :
    Denoted content.text.toList content := by
  cases content with
  | number value =>
      obtain ⟨numeral, hcharacters, hvalue⟩ :=
        Layout.exists_numeral_of_text hlegible.1 (hfinite value rfl)
      have hdenoted := Denoted.numeral numeral
      rw [hcharacters, hvalue] at hdenoted
      exact hdenoted
  | name word =>
      have hdenoted := Denoted.name ⟨word.toList, hlegible.1, hlegible.2.1, hlegible.2.2⟩
      rw [String.ofList_toList] at hdenoted
      exact hdenoted

theorem Legible.beq_iff (hlegible : content.Legible) (hlegible' : content'.Legible) :
    (content == content') = true ↔ content = content' := by
  cases content with
  | number value =>
      cases content' with
      | number value' =>
          rw [Operand.number.injEq]
          exact Rank.beq_iff hlegible.1 hlegible.2 hlegible'.1 hlegible'.2
      | name word' => exact iff_of_false Bool.false_ne_true Operand.noConfusion
  | name word =>
      cases content' with
      | number value' => exact iff_of_false Bool.false_ne_true Operand.noConfusion
      | name word' =>
          rw [Operand.name.injEq]
          change (word == word') = true ↔ word = word'
          exact beq_iff_eq

end Operand

/-! ## Equality of programs -/

theorem Instruction.beq_iff {step step' : Instruction}
    (hstep : ∀ content, step = .push content → content.Legible)
    (hstep' : ∀ content, step' = .push content → content.Legible) :
    (step == step') = true ↔ step = step' := by
  cases step with
  | push content =>
      cases step' with
      | push content' =>
          rw [Instruction.push.injEq]
          exact (hstep content rfl).beq_iff (hstep' content' rfl)
      | apply operator' => exact iff_of_false Bool.false_ne_true Instruction.noConfusion
  | apply operator =>
      cases step' with
      | push content' => exact iff_of_false Bool.false_ne_true Instruction.noConfusion
      | apply operator' =>
          rw [Instruction.apply.injEq]
          change (operator == operator') = true ↔ operator = operator'
          exact beq_iff_eq

/-- Programs on operands of texts are equal only if they are the same. -/
theorem Program.beq_iff {program program' : Program}
    (hlegible : ∀ content, .push content ∈ program.instructions → content.Legible)
    (hlegible' : ∀ content, .push content ∈ program'.instructions → content.Legible) :
    (program == program') = true ↔ program = program' := by
  obtain ⟨steps⟩ := program
  obtain ⟨steps'⟩ := program'
  rw [Program.mk.injEq]
  change (steps == steps') = true ↔ steps = steps'
  induction steps generalizing steps' with
  | nil =>
      cases steps' with
      | nil => exact iff_of_true rfl rfl
      | cons step' rest' => exact iff_of_false Bool.false_ne_true (List.cons_ne_nil _ _).symm
  | cons step rest ih =>
      cases steps' with
      | nil => exact iff_of_false Bool.false_ne_true (List.cons_ne_nil _ _)
      | cons step' rest' =>
          have hfirst : (step == step') = true ↔ step = step' := by
            apply Instruction.beq_iff
            · rintro content rfl
              exact hlegible content List.mem_cons_self
            · rintro content rfl
              exact hlegible' content List.mem_cons_self
          have hrest : (rest == rest') = true ↔ rest = rest' :=
            ih (fun content hmem => hlegible content (List.mem_cons_of_mem _ hmem)) rest'
              fun content hmem => hlegible' content (List.mem_cons_of_mem _ hmem)
          rw [List.cons_beq_cons, Bool.and_eq_true, List.cons.injEq, hfirst, hrest]

namespace Token

/-! ## Rows of tokens -/

/-- What the tokens of a text have in common: the form of their operands, that no two operands are
neighbours, and that none stands right before an opening or right behind a closing parenthesis. -/
structure Legible (tokens : List Token) : Prop where
  operand : ∀ content, .operand content ∈ tokens → content.Legible
  apart : tokens.IsChain fun left right => ¬ (left.isSymbol = false ∧ right.isSymbol = false)
  untouched : tokens.IsChain fun left right => ¬ Touches left right

variable {tokens : List Token}

theorem legible_of_tokenize {text : String} (htokens : tokenize text = .ok tokens) :
    Legible tokens := by
  obtain ⟨hreads, huntouched⟩ := tokenize_eq_ok_iff_not_touches.mp htokens
  refine ⟨?_, ?_, huntouched⟩
  · intro content hcontent
    obtain ⟨characters, hrun, hread⟩ := (operand_mem_iff hreads).mp hcontent
    exact ((Operand.read_eq_ok_iff (Lexeme.wellFormed_of_mem_split _ hrun)).mp hread).legible
  · refine isChain_of_forall₂ hreads ?_ (Lexeme.isChain_split text.toList)
    intro piece piece' token token' hread hread' hapart hboth
    cases hread with
    | symbol content => cases hboth.1
    | run _ =>
        cases hread' with
        | symbol content => cases hboth.2
        | run _ => exact hapart ⟨rfl, rfl⟩

/-! ## Spelling tokens -/

/-- The piece of a text that a token is spelled as. -/
def piece : Token → Lexeme
  | operand content => .run content.text.toList
  | symbol content => .symbol content

theorem spelling_piece (token : Token) : token.piece.spelling = token.text.toList := by
  cases token with
  | operand content => rfl
  | symbol content => simp [piece, Lexeme.spelling, text, Char.toString]

theorem isRun_piece (token : Token) : token.piece.isRun = !token.isSymbol := by
  cases token <;> rfl

/-- Tokens of the form of a text's are the tokens of the text that they spell, side by side. -/
theorem Legible.tokenize_join (hlegible : Legible tokens)
    (hfinite : ∀ value, .operand (.number value) ∈ tokens → value.isFinite = true) :
    tokenize (String.join (tokens.map text)) = .ok tokens := by
  have hdenoted : ∀ content, .operand content ∈ tokens →
      Operand.Denoted content.text.toList content := by
    intro content hcontent
    refine (hlegible.operand content hcontent).denoted_text ?_
    rintro value rfl
    exact hfinite value hcontent
  have hwell : ∀ found ∈ tokens.map piece, found.WellFormed := by
    intro found hfound
    obtain ⟨token, htoken, rfl⟩ := List.mem_map.mp hfound
    cases token with
    | operand content => exact (hdenoted content htoken).wellFormed
    | symbol content => trivial
  have hapart : (tokens.map piece).IsChain Lexeme.Apart := by
    rw [List.isChain_map]
    refine hlegible.apart.imp fun left right hneighbours hruns => hneighbours ?_
    simpa [isRun_piece] using hruns
  have hspell :
      (String.join (tokens.map text)).toList = (tokens.map piece).flatMap Lexeme.spelling := by
    simp [String.toList_join, List.flatMap_map, spelling_piece]
  rw [tokenize_eq_ok_iff_not_touches, hspell, Lexeme.split_spelling hwell hapart]
  refine ⟨?_, hlegible.untouched⟩
  rw [List.forall₂_map_left_iff, List.forall₂_same]
  intro token htoken
  cases token with
  | operand content =>
      exact .run ((Operand.read_eq_ok_iff (hdenoted content htoken).wellFormed).mpr
        (hdenoted content htoken))
  | symbol content => exact .symbol content

end Token

theorem Program.legible_of_ofText {text : String} {program : Program}
    (hprogram : ofText text = .ok program) :
    ∀ content, .push content ∈ program.instructions → content.Legible := by
  obtain ⟨tokens, htokens, hconverted⟩ := exists_tokens_of_ofText hprogram
  intro content hcontent
  exact (Token.legible_of_tokenize htokens).operand content
    (mem_of_ofTokens hconverted _ (List.mem_map_of_mem hcontent))

/-- The tokens of every text are of one form: operands are kept apart by operators and parentheses
enclose them, names have operand characters of which the first does not begin a number, and numbers
have no sign. This is why programs of texts are equal, number by number, only if they are the same
bit by bit, and always equal to themselves. And all tokens of this form, as long as their numbers
are finite, are read again from their own texts put side by side. -/
theorem Token.tokenize_image :
    (∀ text tokens, tokenize text = .ok tokens → Legible tokens) ∧
    (∀ text text' program program', Program.ofText text = .ok program →
      Program.ofText text' = .ok program' → ((program == program') = true ↔ program = program')) ∧
    ∀ tokens, Legible tokens →
      (∀ value, .operand (.number value) ∈ tokens → value.isFinite = true) →
      tokenize (String.join (tokens.map text)) = .ok tokens := by
  refine ⟨fun text tokens => legible_of_tokenize, ?_, fun tokens => Legible.tokenize_join⟩
  intro text text' program program' hprogram hprogram'
  exact Program.beq_iff (Program.legible_of_ofText hprogram) (Program.legible_of_ofText hprogram')

end Formula
