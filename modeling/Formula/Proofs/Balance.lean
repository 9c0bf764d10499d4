import Formula.Proofs.Conservation
import Formula.Proofs.Lexicon

/-!
# Parentheses in a text

The parentheses of a text are those of its tokens, so that their faults can be counted in the text:
a parenthesis is closed that is not open if some beginning of the text closes more of them than it
opens, and one stays open if the whole text opens more than it closes.
-/

namespace Formula

/-- Some beginning of a text closes more parentheses than are opened in it or have been open
before. -/
def Overcloses (depth : Nat) (text : List Char) : Prop :=
  ∃ start, start <+: text ∧ depth + start.count '(' < start.count ')'

variable {depth : Nat} {text : List Char} {tokens : List Token}

theorem not_overcloses_nil : ¬ Overcloses depth [] := by
  simp [Overcloses]

theorem overcloses_cons {c : Char} :
    Overcloses depth (c :: text) ↔
      ∃ start, start <+: text ∧ depth + (c :: start).count '(' < (c :: start).count ')' :=
  exists_prefix_cons_iff (by simp)

theorem overcloses_opening : Overcloses depth ('(' :: text) ↔ Overcloses (depth + 1) text := by
  rw [overcloses_cons]
  refine exists_congr fun start => and_congr_right fun _ => ?_
  simp
  omega

theorem overcloses_closing :
    Overcloses depth (')' :: text) ↔ depth = 0 ∨ Overcloses (depth - 1) text := by
  rw [overcloses_cons]
  constructor
  · rintro ⟨start, hprefix, hcount⟩
    refine or_iff_not_imp_left.mpr fun hdepth => ⟨start, hprefix, ?_⟩
    simp at hcount
    omega
  · rintro (rfl | ⟨start, hprefix, hcount⟩)
    · exact ⟨[], List.nil_prefix, by decide⟩
    · refine ⟨start, hprefix, ?_⟩
      simp
      omega

theorem overcloses_cons_of_ne {c : Char} (hopening : c ≠ '(') (hclosing : c ≠ ')') :
    Overcloses depth (c :: text) ↔ Overcloses depth text := by
  rw [overcloses_cons]
  simp [Overcloses, hopening, hclosing]

theorem ne_parenthesis_of_isOperand {c : Char} (hoperand : Alphabet.isOperand c = true) :
    c ≠ '(' ∧ c ≠ ')' := by
  constructor <;> rintro rfl <;> simp [Alphabet.isOperand] at hoperand

theorem overcloses_append {characters : List Char}
    (hoperand : ∀ c ∈ characters, Alphabet.isOperand c = true) :
    Overcloses depth (characters ++ text) ↔ Overcloses depth text := by
  induction characters with
  | nil => rfl
  | cons c rest ih =>
      rw [List.forall_mem_cons] at hoperand
      obtain ⟨hopening, hclosing⟩ := ne_parenthesis_of_isOperand hoperand.1
      rw [List.cons_append, overcloses_cons_of_ne hopening hclosing, ih hoperand.2]

theorem count_eq_zero_of_isOperand {characters : List Char}
    (hoperand : ∀ c ∈ characters, Alphabet.isOperand c = true) :
    characters.count '(' = 0 ∧ characters.count ')' = 0 := by
  simp only [List.count_eq_zero]
  exact ⟨fun h => (ne_parenthesis_of_isOperand (hoperand _ h)).1 rfl,
    fun h => (ne_parenthesis_of_isOperand (hoperand _ h)).2 rfl⟩

namespace Token

theorem depth?_eq_none_iff (hreading : Reading text tokens) :
    depth? depth tokens = none ↔ Overcloses depth text := by
  induction hreading generalizing depth with
  | nil => simp [depth?, not_overcloses_nil]
  | @symbol content rest tokens hrest ih =>
      rcases content with operator | _ | _
      · have hne : operator.character ≠ '(' ∧ operator.character ≠ ')' := by
          cases operator <;> decide
        rw [depth?_operator, ih, Symbol.character, overcloses_cons_of_ne hne.1 hne.2]
      · exact ih.trans overcloses_opening.symm
      · refine Iff.trans ?_ overcloses_closing.symm
        cases depth with
        | zero => simp [depth?]
        | succ depth => simpa [depth?] using ih
  | operand hdenoted _ hrest ih =>
      rw [depth?_operand, ih, overcloses_append hdenoted.wellFormed.2]

theorem count_of_depth? {last : Nat} (hreading : Reading text tokens)
    (hdepth : depth? depth tokens = some last) :
    depth + text.count '(' = last + text.count ')' := by
  induction hreading generalizing depth with
  | nil => simpa [depth?] using hdepth
  | @symbol content rest tokens hrest ih =>
      rcases content with operator | _ | _
      · have hne : operator.character ≠ '(' ∧ operator.character ≠ ')' := by
          cases operator <;> decide
        rw [depth?_operator] at hdepth
        simpa [Symbol.character, hne] using ih hdepth
      · have hlater := ih (hdepth : depth? (depth + 1) tokens = some last)
        simp [Symbol.character, Side.character]
        omega
      · cases depth with
        | zero => simp [depth?] at hdepth
        | succ depth =>
            have hlater := ih (hdepth : depth? depth tokens = some last)
            simp [Symbol.character, Side.character]
            omega
  | operand hdenoted _ hrest ih =>
      rw [depth?_operand] at hdepth
      simpa [count_eq_zero_of_isOperand hdenoted.wellFormed.2] using ih hdepth

end Token

/-- Tokens make no program exactly if the text that they are read from has a parenthesis without a
partner. A closing one among these goes before an opening one. -/
theorem Program.ofTokens_eq_error_iff (hreading : Token.Reading text tokens) {error : Error} :
    ofTokens tokens = .error error ↔
      Overcloses 0 text ∧ error = .unmatchedParenthesis .opening ∨
      ¬ Overcloses 0 text ∧ text.count ')' < text.count '(' ∧
        error = .unmatchedParenthesis .closing := by
  rw [← Token.depth?_eq_none_iff hreading]
  cases hdepth : Token.depth? 0 tokens with
  | none => simp [ofTokens_of_depth?_eq_none hdepth, eq_comm]
  | some depth =>
      have hcount := Token.count_of_depth? hreading hdepth
      have hend := ofTokens_of_depth?_eq_some hdepth
      split at hend
      next hzero =>
        obtain ⟨program, hprogram⟩ := hend
        simp [hprogram]
        omega
      next hopen =>
        have hlt : text.count ')' < text.count '(' := by omega
        simp [hend, hlt, eq_comm]

end Formula
