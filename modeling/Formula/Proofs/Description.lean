import Formula.Proofs.Fault
import Formula.Proofs.Message
import Formula.Text.Blank

/-!
# Characters in reports

The report of a character that no formula holds says which character it is: it can be read back from
its description, whatever text it was met in. The plain space and the controls are described by
names in brackets, so that no control is in a description. White space beyond these is described by
itself, although it does not show.
-/

namespace Formula

open Text (Inline)

/-! ## Descriptions read back -/

namespace Alphabet

/-- The value of a capital hexadecimal digit. -/
def digitValue (c : Char) : Nat := if c.isDigit then c.toNat - 0x30 else c.toNat - 0x37

/-- The number that capital hexadecimal digits stand for. -/
def numberOf (digits : List Char) : Nat := digits.foldl (fun n c => 16 * n + digitValue c) 0

/-- The character that a description is about. -/
def described (description : String) : Char :=
  if description = "[space]" then ' '
  else if description = "[tab]" then '\t'
  else if description = "[newline]" then '\n'
  else if description = "[return]" then '\r'
  else
    match description.toList with
    | [c] => c
    | characters => Char.ofNat (numberOf (characters.drop 3).dropLast)

theorem numberOf_concat (digits : List Char) (c : Char) :
    numberOf (digits ++ [c]) = 16 * numberOf digits + digitValue c := by
  rw [numberOf, List.foldl_append]
  rfl

theorem digitValue_digitChar {digit : Nat} (hdigit : digit < 16) :
    digitValue digit.digitChar.toUpper = digit := by
  interval_cases digit <;> decide

theorem numberOf_toDigits (n : Nat) : numberOf ((Nat.toDigits 16 n).map Char.toUpper) = n := by
  induction n using Nat.strong_induction_on with
  | _ n ih =>
      rw [Nat.toDigits_eq_if (by decide)]
      split
      next hlt =>
        rw [List.map_singleton]
        exact (Nat.zero_add _).trans (digitValue_digitChar hlt)
      next hge =>
        rw [List.map_append, List.map_singleton, numberOf_concat, ih (n / 16) (by omega),
          digitValue_digitChar (Nat.mod_lt n (by decide))]
        exact Nat.div_add_mod n 16

theorem numberOf_codePoint (c : Char) : numberOf (codePoint c) = c.toNat := by
  have hzeros (count : Nat) : numberOf (List.replicate count '0') = 0 := by
    induction count with
    | zero => rfl
    | succ count ih =>
        rw [List.replicate_succ', numberOf_concat, ih]
        rfl
  have hdigits := numberOf_toDigits c.toNat
  unfold numberOf at hzeros hdigits
  dsimp only [codePoint]
  rw [numberOf, List.foldl_append, hzeros, hdigits]

/-- A character can be read back from its description. -/
theorem described_describe (c : Char) : described (describe c) = c := by
  unfold describe
  split_ifs with hspace htab hnewline hreturn hcontrol
  · rw [hspace]
    rfl
  · rw [htab]
    rfl
  · rw [hnewline]
    rfl
  · rw [hreturn]
    rfl
  · simp [described, ← String.toList_inj, numberOf_codePoint]
  · simp [described, ← String.toList_inj]

theorem describe_injective : Function.Injective describe :=
  Function.LeftInverse.injective described_describe

/-! ## What shows in descriptions -/

/-- White space that is neither the plain space nor a control. -/
def IsOtherBlank (c : Char) : Prop :=
  Text.isBlank c = true ∧ c ≠ ' ' ∧ isControl c = false

theorem isBlank_of_isOperand {c : Char} (hoperand : isOperand c = true) :
    Text.isBlank c = false := by
  have hrange := toNat_of_isOperand hoperand
  simp only [Text.isBlank, Bool.or_eq_false_iff, Bool.and_eq_false_iff, decide_eq_false_iff_not,
    List.contains_eq_mem, List.mem_cons, List.not_mem_nil, or_false]
  omega

/-- A description has white space in it exactly if it is that of white space which is neither the
plain space nor a control. -/
theorem exists_isBlank_describe_iff (c : Char) :
    (∃ d ∈ (describe c).toList, Text.isBlank d = true) ↔ IsOtherBlank c := by
  by_cases hc : c = ' ' ∨ isControl c = true
  · refine iff_of_false ?_ ?_
    · rintro ⟨d, hd, hblank⟩
      obtain ⟨name, -, hdescription, hname⟩ := isBracketed_describe hc
      rw [hdescription, List.mem_cons, List.mem_append, List.mem_singleton] at hd
      rcases hd with rfl | hmem | rfl
      · cases hblank
      · rcases hname d hmem with hoperand | rfl
        · simp [isBlank_of_isOperand hoperand] at hblank
        · cases hblank
      · cases hblank
    · rintro ⟨-, hspace, hcontrol⟩
      simp [hspace, hcontrol] at hc
  · rw [not_or, Bool.not_eq_true] at hc
    rw [describe_eq_self hc.1 hc.2, String.toList_ofList]
    simp [IsOtherBlank, hc.1, hc.2]

end Alphabet

/-! ## The character that is reported -/

/-- The first of the characters of a text that no formula holds. -/
def FirstStray (text : List Char) (c : Char) : Prop :=
  ∃ before after, text = before ++ c :: after ∧
    (∀ d ∈ before, Alphabet.isOperand d = true ∨ d ∈ ['+', '-', '*', '/', '^', '(', ')']) ∧
    Alphabet.isOperand c = false ∧ c ∉ ['+', '-', '*', '/', '^', '(', ')']

theorem FirstStray.unique {text : List Char} {c c' : Char} (hfirst : FirstStray text c)
    (hfirst' : FirstStray text c') : c = c' := by
  have hfind {c : Char} (hfirst : FirstStray text c) :
      (text.find? fun d => !(Alphabet.isOperand d ||
        ['+', '-', '*', '/', '^', '(', ')'].contains d)) = some c := by
    obtain ⟨before, after, htext, hbefore, hoperand, hsymbol⟩ := hfirst
    rw [List.find?_eq_some_iff_append]
    refine ⟨?_, before, after, htext, fun d hd => ?_⟩
    · simpa [hoperand] using hsymbol
    · simpa using hbefore d hd
  exact Option.some.inj ((hfind hfirst).symm.trans (hfind hfirst'))

namespace Token

variable {text description : String}

theorem exists_firstStray_of_tokenize
    (herror : tokenize text = .error (.invalidCharacter description)) :
    ∃ c, FirstStray text.toList c ∧ description = Alphabet.describe c := by
  rcases tokenize_eq_error_iff_first.mp herror with
    ⟨position, hoffence, hleast, -⟩ | ⟨-, near, -, hnear⟩
  · cases hoffence with
    | @stray before after c htext hoperand hsymbol hposition =>
        refine ⟨c, ⟨before, after, htext, fun d hd => ?_, hoperand, hsymbol⟩, rfl⟩
        by_contra hneither
        rw [not_or, Bool.not_eq_true] at hneither
        -- Such a character before this one would be an offence in front of it.
        obtain ⟨earlier, later, rfl⟩ := List.append_of_mem hd
        rw [List.append_assoc] at htext
        have hlater := hleast _ _ (.stray htext hneither.1 hneither.2 rfl)
        rw [← hposition, List.length_append, List.length_cons] at hlater
        omega
  · cases hnear

/-- What the report of a character says. It is about the first character of the text that no formula
holds, and about no other one: the same report for another text is about the same character. There
are no controls in it, and the plain space and the controls are named in brackets. White space is in
it exactly if the character is white space of another kind. -/
theorem description_of_tokenize
    (herror : tokenize text = .error (.invalidCharacter description)) :
    ∃ c, FirstStray text.toList c ∧ description = Alphabet.describe c ∧
      (∀ other c', tokenize other = .error (.invalidCharacter description) →
        FirstStray other.toList c' → c' = c) ∧
      Inline description ∧
      (c = ' ' ∨ Alphabet.isControl c = true → Alphabet.IsBracketed description) ∧
      ((∃ d ∈ description.toList, Text.isBlank d = true) ↔ Alphabet.IsOtherBlank c) := by
  obtain ⟨c, hfirst, rfl⟩ := exists_firstStray_of_tokenize herror
  refine ⟨c, hfirst, rfl, ?_, Alphabet.inline_describe c, Alphabet.isBracketed_describe,
    Alphabet.exists_isBlank_describe_iff c⟩
  intro other c' hother hfirst'
  obtain ⟨c'', hfirst'', heq⟩ := exists_firstStray_of_tokenize hother
  rw [hfirst'.unique hfirst'', Alphabet.describe_injective heq]

/-- A control that is white space as well, behind a number that is not read. -/
theorem description_of_tokenize_control :
    tokenize "(1.2.3\x85" = .error (.invalidCharacter "[U+0085]") ∧
      ∀ other c', tokenize other = .error (.invalidCharacter "[U+0085]") →
        FirstStray other.toList c' → c' = '\x85' := by
  have herror : tokenize "(1.2.3\x85" = .error (.invalidCharacter "[U+0085]") := by
    decide +kernel
  obtain ⟨c, -, hdescription, hunique, -⟩ := description_of_tokenize herror
  obtain rfl : c = '\x85' := Alphabet.describe_injective (hdescription.symm.trans (by decide))
  exact ⟨herror, hunique⟩

/-- The space that does not break a line is reported by itself and does not show. -/
theorem description_of_tokenize_blank :
    tokenize "2\xa03" = .error (.invalidCharacter "\xa0") ∧ Text.isBlank '\xa0' = true := by
  decide +kernel

end Token

end Formula
