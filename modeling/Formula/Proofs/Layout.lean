import Formula.Number.Layout
import Formula.Proofs.Numeral
import Formula.Proofs.Rounding

/-!
# Numbers that are written out

Without a power of ten, the text of a decimal number is its digits, possibly with zeros before or
after them, and at most one point between digits. This is a numeral, and one that reads as the number
that was written: of a finite number without a sign, the text is the text of a numeral for it. With
the sign and the words for what is not finite, every number is read back from its text.
-/

namespace Formula.Layout

/-- Splitting digits at the point loses none of them. -/
theorem splitAtPoint_toDigits (decimal : Decimal) :
    ∃ whole fraction,
      splitAtPoint (Nat.toDigits 10 decimal.digits) decimal.exponent = (whole, fraction) ∧
      whole ≠ [] ∧ (∀ c ∈ whole ++ fraction, c.isDigit = true) ∧
      Decimal.rank ⟨Nat.ofDigitChars 10 (whole ++ fraction) 0, -fraction.length⟩ =
        decimal.rank := by
  obtain ⟨digits, exponent⟩ := decimal
  have hdigits : ∀ c ∈ Nat.toDigits 10 digits, c.isDigit = true := fun c =>
    Nat.isDigit_of_mem_toDigits (by decide) (by decide)
  have hzeros : ∀ count, ∀ c ∈ List.replicate count '0', c.isDigit = true := by
    intro count c hc
    rw [List.eq_of_mem_replicate hc]
    decide
  have hvalue : Nat.ofDigitChars 10 (Nat.toDigits 10 digits) 0 = digits :=
    Nat.ofDigitChars_ten_toDigits
  cases exponent with
  | ofNat exponent =>
      refine ⟨_, [], rfl, ?_, ?_, ?_⟩
      · simp [Nat.toDigits_ne_nil]
      · rw [List.append_nil]
        exact List.forall_mem_append.mpr ⟨hdigits, hzeros exponent⟩
      · rw [List.append_nil, Nat.ofDigitChars_append, Nat.ofDigitChars_replicate_zero, hvalue,
          mul_comm]
        exact Decimal.rank_mul_pow digits exponent
  | negSucc places =>
      simp only [splitAtPoint, List.splitAt_eq]
      generalize hpadded :
        List.replicate (places + 2 - (Nat.toDigits 10 digits).length) '0' ++
          Nat.toDigits 10 digits = padded
      have hlength : places + 2 ≤ padded.length := by
        rw [← hpadded, List.length_append, List.length_replicate]
        omega
      refine ⟨_, _, rfl, ?_, ?_, ?_⟩
      · intro hnil
        have hempty := congrArg List.length hnil
        rw [List.length_take, List.length_nil] at hempty
        omega
      · rw [List.take_append_drop, ← hpadded]
        exact List.forall_mem_append.mpr ⟨hzeros _, hdigits⟩
      · rw [List.take_append_drop, List.length_drop, Nat.sub_sub_self (by omega), ← hpadded,
          Nat.ofDigitChars_append, Nat.ofDigitChars_replicate_zero, mul_zero, hvalue]
        rfl

/-- A decimal number is written out as a numeral. -/
theorem exists_numeral_of_decimal (decimal : Decimal) :
    ∃ numeral : Numeral, numeral.characters = plain.decimalText decimal ∧
      numeral.decimal.rank = decimal.rank := by
  obtain ⟨whole, fraction, hsplit, hwhole, hdigits, hrank⟩ := splitAtPoint_toDigits decimal
  obtain ⟨hbefore, hafter⟩ := List.forall_mem_append.mp hdigits
  show ∃ numeral : Numeral, numeral.characters =
      plain.writtenOut (Nat.toDigits 10 decimal.digits) decimal.exponent ∧ _
  rw [writtenOut, hsplit]
  cases fraction with
  | nil =>
      refine ⟨⟨whole, none, none, hbefore, ?_, ?_, ?_, ?_, ?_⟩, rfl, ?_⟩
      · simp
      · simpa using hwhole
      · simp
      · simp
      · simp
      · rw [← hrank]
        rfl
  | cons first rest =>
      refine ⟨⟨whole, some (first :: rest), none, hbefore, ?_, ?_, ?_, ?_, ?_⟩, ?_, ?_⟩
      · rintro _ ⟨⟩
        exact hafter
      · simp
      · simp
      · simp
      · simp
      · simp [Numeral.characters]
      · rw [← hrank]
        simp [Numeral.decimal]

variable {rank : Nat} {x : Float}

theorem exists_numeral_of_rank (hfinite : rank < Rank.infinity) :
    ∃ numeral : Numeral, numeral.characters = plain.rankText rank ∧
      numeral.decimal.rank = rank := by
  obtain ⟨numeral, hcharacters, hrank⟩ := exists_numeral_of_decimal (.shortest rank)
  refine ⟨numeral, ?_, hrank.trans (Decimal.rank_shortest hfinite)⟩
  rw [rankText, if_neg (Nat.ne_of_lt hfinite), hcharacters]

/-- The text of a finite number without a sign is the text of a numeral for that number. -/
theorem exists_numeral_of_text (hsign : Rank.isNegative x = false) (hfinite : x.isFinite = true) :
    ∃ numeral : Numeral, numeral.characters = (plain.text x).toList ∧ numeral.value = x := by
  have hrank := Rank.isFinite_iff.mp hfinite
  obtain ⟨numeral, hcharacters, hvalue⟩ := exists_numeral_of_rank hrank
  refine ⟨numeral, ?_, ?_⟩
  · rw [text, String.toList_ofList, characters, if_neg (Nat.lt_asymm hrank),
      if_neg (by simp [hsign]), hcharacters]
  · rw [Numeral.value, hvalue, ← hsign, Rank.toFloat_ofFloat]

/-! ## Numbers read back -/

/-- What is written for a rank is the word for infinity or the text of a numeral. -/
theorem rankText_cases (hrank : rank ≤ Rank.infinity) :
    (rank = Rank.infinity ∧ plain.rankText rank = ['i', 'n', 'f']) ∨
      ∃ numeral : Numeral, numeral.characters = plain.rankText rank ∧
        numeral.decimal.rank = rank := by
  rcases Nat.eq_or_lt_of_le hrank with rfl | hfinite
  · exact .inl ⟨rfl, if_pos rfl⟩
  · exact .inr (exists_numeral_of_rank hfinite)

/-- What is written for a rank does not begin with a sign. -/
theorem splitSign_rankText (hrank : rank ≤ Rank.infinity) :
    Numeral.splitSign (plain.rankText rank) = (false, plain.rankText rank) := by
  rcases rankText_cases hrank with ⟨-, htext⟩ | ⟨numeral, htext, -⟩
  · rw [htext]
    rfl
  · rw [← htext, Numeral.splitSign_of_isOperand numeral.isOperand_characters]

/-- What is written for a rank is not the word for what has none. -/
theorem lower_rankText_ne (hrank : rank ≤ Rank.infinity) :
    String.ofList ((plain.rankText rank).map Char.toLower) ≠ "nan" := by
  rcases rankText_cases hrank with ⟨-, htext⟩ | ⟨numeral, htext, -⟩
  · rw [htext]
    decide
  · rw [← htext]
    exact Numeral.lower_ne_of_startsNumber "nan" numeral.head?_characters (by decide)

theorem rank?_rankText (hrank : rank ≤ Rank.infinity) :
    Numeral.rank? (plain.rankText rank) = some rank := by
  rcases rankText_cases hrank with ⟨rfl, htext⟩ | ⟨numeral, htext, hvalue⟩
  · rw [htext]
    rfl
  · rw [← htext, Numeral.rank?_of_startsNumber numeral.head?_characters,
      Numeral.decimal?_characters, Option.map_some, hvalue]

/-- A sign and what is written for a rank are read as the number with that sign and rank. -/
theorem read?_rankText {text : List Char} {negative : Bool} (hrank : rank ≤ Rank.infinity)
    (hsign : Numeral.splitSign text = (negative, plain.rankText rank)) :
    Numeral.read? text = some (Rank.toFloat negative rank) := by
  rw [Numeral.read?_of_splitSign hsign (lower_rankText_ne hrank), rank?_rankText hrank]
  rfl

/-- Every number is read back from its text, negative zero and "not a number" included. -/
theorem read?_text (x : Float) : Numeral.read? (plain.text x).toList = some x := by
  have hself := Rank.toFloat_ofFloat x
  rw [text, String.toList_ofList, characters]
  split_ifs with hnan hnegative
  · have hx := Rank.isNaN_iff.mpr hnan
    rw [Float.isNaN_eq_decide_eq_nan, decide_eq_true_eq] at hx
    rw [hx]
    rfl
  · rw [hnegative] at hself
    rw [read?_rankText (Nat.le_of_not_lt hnan) rfl, hself]
  · have hrank := Nat.le_of_not_lt hnan
    rw [Bool.eq_false_iff.mpr hnegative] at hself
    rw [read?_rankText hrank (splitSign_rankText hrank), hself]

end Formula.Layout
