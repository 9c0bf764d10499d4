import Formula.Alphabet
import Formula.Number.Numeral

/-!
# The numerals of formulas

A formula has no signs within its operands, and no words for numbers that are not finite. What is
left of the texts of numbers are numerals: digits with at most one point, of which there is at least
one, and possibly a power of ten. They are described here as data. The main statements say that
reading answers exactly on their texts, and with the number nearest to the one that is written.
-/

namespace Formula

/-- A numeral, by the parts of its text. -/
structure Numeral where
  /-- The digits before the point, or all digits if there is no point. -/
  whole : List Char
  /-- The digits after the point, if there is one. -/
  fraction : Option (List Char)
  /-- The letter that introduces a power of ten, and the digits of that power. -/
  exponent : Option (Char × List Char)
  whole_isDigit : ∀ c ∈ whole, c.isDigit = true
  fraction_isDigit : ∀ digits ∈ fraction, ∀ c ∈ digits, c.isDigit = true
  mantissa_ne_nil : whole ++ fraction.getD [] ≠ []
  exponent_letter : ∀ power ∈ exponent, power.1 = 'e' ∨ power.1 = 'E'
  exponent_ne_nil : ∀ power ∈ exponent, power.2 ≠ []
  exponent_isDigit : ∀ power ∈ exponent, ∀ c ∈ power.2, c.isDigit = true

namespace Numeral

def characters (numeral : Numeral) : List Char :=
  numeral.whole ++ (numeral.fraction.elim [] ('.' :: ·) ++
    numeral.exponent.elim [] fun power => power.1 :: power.2)

/-- The decimal number that is written: all digits as one natural number, and a power of ten that
makes up for the digits after the point. -/
def decimal (numeral : Numeral) : Decimal where
  digits := Nat.ofDigitChars 10 (numeral.whole ++ numeral.fraction.getD []) 0
  exponent := (numeral.exponent.elim 0 fun power => Nat.ofDigitChars 10 power.2 0 : Nat) -
    ((numeral.fraction.getD []).length : Int)

/-- The binary64 number nearest to the one that is written. -/
def value (numeral : Numeral) : Float := Rank.toFloat false numeral.decimal.rank

/-! ## Characters of numerals -/

theorem isOperand_of_isDigit {c : Char} (hdigit : c.isDigit = true) :
    Alphabet.isOperand c = true := by
  simp [Alphabet.isOperand, Char.isAlphanum, hdigit]

theorem splitSign_of_isOperand {text : List Char}
    (hoperand : ∀ c ∈ text, Alphabet.isOperand c = true) : splitSign text = (false, text) := by
  unfold splitSign
  split
  · exact absurd (hoperand '-' List.mem_cons_self) (by decide)
  · exact absurd (hoperand '+' List.mem_cons_self) (by decide)
  · rfl

theorem toLower_of_startsNumber {c : Char} (hstart : Alphabet.startsNumber c = true) :
    c.toLower = c := by
  simp only [Alphabet.startsNumber, Bool.or_eq_true, decide_eq_true_eq] at hstart
  rcases hstart with hdigit | rfl
  · have hrange := Char.isDigit_iff_toNat.mp hdigit
    refine dif_neg fun hupper => ?_
    have hletter : 65 ≤ c.toNat := UInt32.le_iff_toNat_le.mp hupper.1
    have hbound : c.toNat ≤ 57 := hrange.2
    omega
  · decide

/-- A text that begins like a number is not the word for one that is not finite, in letters of
either case. -/
theorem lower_ne_of_startsNumber {text : List Char} (word : String)
    (hstart : text.head?.any Alphabet.startsNumber = true)
    (hword : word.toList.head?.any Alphabet.startsNumber = false) :
    String.ofList (text.map Char.toLower) ≠ word := by
  cases text with
  | nil => simp at hstart
  | cons c rest =>
      rintro rfl
      simp only [List.head?_cons, Option.any_some] at hstart
      simp [toLower_of_startsNumber hstart, hstart] at hword

theorem head?_characters (numeral : Numeral) :
    numeral.characters.head?.any Alphabet.startsNumber = true := by
  obtain ⟨whole, fraction, exponent, hwhole, hfraction, hmantissa, _, _, _⟩ := numeral
  cases whole with
  | cons c rest => simp [characters, Alphabet.startsNumber, hwhole c List.mem_cons_self]
  | nil =>
      cases fraction with
      | none => simp at hmantissa
      | some digits => rfl

theorem characters_ne_nil (numeral : Numeral) : numeral.characters ≠ [] := by
  intro hnil
  have hhead := numeral.head?_characters
  simp [hnil] at hhead

theorem isOperand_characters (numeral : Numeral) :
    ∀ c ∈ numeral.characters, Alphabet.isOperand c = true := by
  intro c hc
  simp only [characters, List.mem_append] at hc
  rcases hc with hwhole | hfraction | hexponent
  · exact isOperand_of_isDigit (numeral.whole_isDigit c hwhole)
  · cases hfound : numeral.fraction with
    | none => simp [hfound] at hfraction
    | some digits =>
        simp only [hfound, Option.elim_some, List.mem_cons] at hfraction
        rcases hfraction with rfl | hdigit
        · decide
        · exact isOperand_of_isDigit (numeral.fraction_isDigit digits hfound c hdigit)
  · cases hfound : numeral.exponent with
    | none => simp [hfound] at hexponent
    | some power =>
        simp only [hfound, Option.elim_some, List.mem_cons] at hexponent
        rcases hexponent with rfl | hdigit
        · rcases numeral.exponent_letter power hfound with hletter | hletter <;>
            rw [hletter] <;> decide
        · exact isOperand_of_isDigit (numeral.exponent_isDigit power hfound c hdigit)

/-! ## Reading -/

theorem span_digits {digits : List Char} (rest : List Char)
    (hdigits : ∀ c ∈ digits, c.isDigit = true) (hrest : ∀ c ∈ rest.head?, c.isDigit = false) :
    (digits ++ rest).takeWhile Char.isDigit = digits ∧
      (digits ++ rest).dropWhile Char.isDigit = rest := by
  rw [List.takeWhile_append_of_pos hdigits, List.dropWhile_append_of_pos hdigits]
  cases rest with
  | nil => simp
  | cons c rest => simp [hrest c rfl]

theorem natural?_digits {digits : List Char} (hne : digits ≠ [])
    (hdigits : ∀ c ∈ digits, c.isDigit = true) :
    natural? digits = some (Nat.ofDigitChars 10 digits 0) :=
  if_pos ⟨hne, List.all_eq_true.mpr hdigits⟩

theorem power?_exponent (numeral : Numeral) :
    power? (numeral.exponent.elim [] fun power => power.1 :: power.2) =
      some ((numeral.exponent.elim 0 fun power => Nat.ofDigitChars 10 power.2 0 : Nat) : Int) := by
  cases hfound : numeral.exponent with
  | none => rfl
  | some power =>
      have hdigits := numeral.exponent_isDigit power hfound
      have hsign := splitSign_of_isOperand fun c hc => isOperand_of_isDigit (hdigits c hc)
      have hnatural := natural?_digits (numeral.exponent_ne_nil power hfound) hdigits
      simp [power?, numeral.exponent_letter power hfound, hsign, hnatural]

/-- What follows the mantissa of a numeral continues neither its digits nor its point. -/
theorem head?_exponent (numeral : Numeral) :
    ∀ c ∈ (numeral.exponent.elim [] fun power => power.1 :: power.2).head?,
      c ≠ '.' ∧ c.isDigit = false := by
  intro c hc
  cases hfound : numeral.exponent with
  | none => simp [hfound] at hc
  | some power =>
      simp only [hfound, Option.elim_some, List.head?_cons, Option.mem_def,
        Option.some.injEq] at hc
      rcases numeral.exponent_letter power hfound with hletter | hletter <;>
        rw [← hc, hletter] <;> decide

theorem splitFraction_append {fraction : Option (List Char)} {tail : List Char}
    (hdigits : ∀ digits ∈ fraction, ∀ c ∈ digits, c.isDigit = true)
    (htail : ∀ c ∈ tail.head?, c ≠ '.' ∧ c.isDigit = false) :
    splitFraction (fraction.elim [] ('.' :: ·) ++ tail) = (fraction.getD [], tail) := by
  cases fraction with
  | none =>
      show splitFraction tail = ([], tail)
      unfold splitFraction
      split
      · exact absurd rfl (htail '.' rfl).1
      · rfl
  | some digits =>
      obtain ⟨htake, hdrop⟩ := span_digits tail (hdigits digits rfl) fun c hc => (htail c hc).2
      show ((digits ++ tail).takeWhile Char.isDigit, (digits ++ tail).dropWhile Char.isDigit) = _
      rw [htake, hdrop]
      rfl

theorem decimal?_characters (numeral : Numeral) :
    decimal? numeral.characters = some numeral.decimal := by
  have htail := head?_exponent numeral
  have hpower := power?_exponent numeral
  have hsplit := splitFraction_append numeral.fraction_isDigit htail
  have hmantissa := numeral.mantissa_ne_nil
  unfold decimal? characters decimal
  generalize (numeral.exponent.elim [] fun power => power.1 :: power.2) = tail at *
  have hafter : ∀ c ∈ (numeral.fraction.elim [] ('.' :: ·) ++ tail).head?, c.isDigit = false := by
    intro c hc
    cases hfound : numeral.fraction with
    | none => exact (htail c (by simpa [hfound] using hc)).2
    | some digits =>
        have hpoint : '.' = c := by simpa [hfound] using hc
        rw [← hpoint]
        decide
  obtain ⟨htake, hdrop⟩ := span_digits _ numeral.whole_isDigit hafter
  simp only [htake, hdrop, hsplit]
  rw [hpower]
  rfl

theorem exists_exponent_of_power? {text : List Char} {power : Int}
    (hoperand : ∀ c ∈ text, Alphabet.isOperand c = true) (hread : power? text = some power) :
    ∃ exponent : Option (Char × List Char),
      (exponent.elim [] fun power => power.1 :: power.2) = text ∧
      (∀ power ∈ exponent, power.1 = 'e' ∨ power.1 = 'E') ∧
      (∀ power ∈ exponent, power.2 ≠ []) ∧
      ∀ power ∈ exponent, ∀ c ∈ power.2, c.isDigit = true := by
  cases text with
  | nil => exact ⟨none, rfl, by simp, by simp, by simp⟩
  | cons letter digits =>
      have hsign := splitSign_of_isOperand fun c hc => hoperand c (List.mem_cons_of_mem _ hc)
      simp only [power?, hsign] at hread
      split at hread
      next hletter =>
        obtain ⟨natural, hnatural, _⟩ := Option.map_eq_some_iff.mp hread
        unfold natural? at hnatural
        split at hnatural
        next hdigits =>
          refine ⟨some (letter, digits), rfl, ?_, ?_, ?_⟩ <;> rintro _ ⟨⟩
          · exact hletter
          · exact hdigits.1
          · exact List.all_eq_true.mp hdigits.2
        next => simp at hnatural
      next => simp at hread

/-- What reads as a decimal number is the text of a numeral. -/
theorem exists_of_decimal? {text : List Char} {decimal : Decimal}
    (hoperand : ∀ c ∈ text, Alphabet.isOperand c = true) (hread : decimal? text = some decimal) :
    ∃ numeral : Numeral, numeral.characters = text := by
  have hwhole : ∀ c ∈ text.takeWhile Char.isDigit, c.isDigit = true := fun c hc =>
    List.all_eq_true.mp List.all_takeWhile c hc
  have hafter : ∀ c ∈ text.dropWhile Char.isDigit, Alphabet.isOperand c = true := fun c hc =>
    hoperand c ((List.dropWhile_suffix _).subset hc)
  have htext := List.takeWhile_append_dropWhile (p := Char.isDigit) (l := text)
  simp only [decimal?] at hread
  generalize text.takeWhile Char.isDigit = whole at *
  generalize text.dropWhile Char.isDigit = after at *
  subst htext
  -- What follows the first digits is a point with its digits, or nothing, and then the power.
  obtain ⟨fraction, tail, hfraction, rfl, hsplit⟩ :
      ∃ (fraction : Option (List Char)) (tail : List Char),
        (∀ digits ∈ fraction, ∀ c ∈ digits, c.isDigit = true) ∧
        after = fraction.elim [] ('.' :: ·) ++ tail ∧
        splitFraction after = (fraction.getD [], tail) := by
    unfold splitFraction
    split
    next rest =>
      refine ⟨some (rest.takeWhile Char.isDigit), rest.dropWhile Char.isDigit, ?_, ?_, rfl⟩
      · rintro _ ⟨⟩
        exact List.all_eq_true.mp List.all_takeWhile
      · simp
    next => exact ⟨none, after, by simp, rfl, rfl⟩
  rw [hsplit] at hread
  dsimp only at hread
  split at hread
  next => simp at hread
  next hmantissa =>
    obtain ⟨power, hpower, _⟩ := Option.map_eq_some_iff.mp hread
    obtain ⟨exponent, rfl, hletter, hne, hdigits⟩ := exists_exponent_of_power?
      (fun c hc => hafter c (List.mem_append_right _ hc)) hpower
    exact ⟨⟨whole, fraction, exponent, hwhole, hfraction, hmantissa, hletter, hne, hdigits⟩, rfl⟩

/-- Without a sign, a text that begins like a number is not a word. -/
theorem rank?_of_startsNumber {text : List Char}
    (hstart : text.head?.any Alphabet.startsNumber = true) :
    rank? text = (decimal? text).map Decimal.rank := by
  unfold rank?
  split
  next hinf => exact absurd hinf (lower_ne_of_startsNumber _ hstart (by decide))
  next hinfinity => exact absurd hinfinity (lower_ne_of_startsNumber _ hstart (by decide))
  next => rfl

/-- A text that is a number, and not the word for none, has a sign and a rank. -/
theorem read?_of_splitSign {text body : List Char} {negative : Bool}
    (hsign : splitSign text = (negative, body))
    (hnan : String.ofList (body.map Char.toLower) ≠ "nan") :
    read? text = (rank? body).map (Rank.toFloat negative) := by
  rw [read?, hsign]
  exact if_neg hnan

/-- Reading a text that begins like a number takes neither a sign nor a word into account. -/
theorem read?_of_startsNumber {text : List Char}
    (hoperand : ∀ c ∈ text, Alphabet.isOperand c = true)
    (hstart : text.head?.any Alphabet.startsNumber = true) :
    read? text = (decimal? text).map fun decimal => Rank.toFloat false decimal.rank := by
  have hnan := lower_ne_of_startsNumber "nan" hstart (by decide)
  rw [read?_of_splitSign (splitSign_of_isOperand hoperand) hnan, rank?_of_startsNumber hstart,
    Option.map_map]
  rfl

/-- An operand that begins like a number reads as a number exactly if it is the text of a numeral,
and then as the value of that numeral. -/
theorem read?_eq_some_iff {text : List Char}
    (hoperand : ∀ c ∈ text, Alphabet.isOperand c = true)
    (hstart : text.head?.any Alphabet.startsNumber = true) {value : Float} :
    read? text = some value ↔
      ∃ numeral : Numeral, numeral.characters = text ∧ numeral.value = value := by
  rw [read?_of_startsNumber hoperand hstart]
  constructor
  · intro hread
    obtain ⟨decimal, hdecimal, hvalue⟩ := Option.map_eq_some_iff.mp hread
    obtain ⟨numeral, rfl⟩ := exists_of_decimal? hoperand hdecimal
    rw [decimal?_characters, Option.some.injEq] at hdecimal
    subst hdecimal
    exact ⟨numeral, rfl, hvalue⟩
  · intro hnumeral
    obtain ⟨numeral, rfl, rfl⟩ := hnumeral
    rw [decimal?_characters]
    rfl

end Numeral

end Formula
