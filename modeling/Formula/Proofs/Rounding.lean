import Formula.Number.Decimal
import Formula.Proofs.Binary64

/-!
# Decimal numbers that round back

The exact value at a rank rounds to that rank, and the search for fewer digits accepts nothing that
does not round to it either. The decimal number that a finite number is written as reads as the same
number for this reason alone, however many digits the search saves.
-/

namespace Formula

namespace Rank

variable {rank : Nat}

/-- A rank is the one behind the numbers of less spacing, and as many spacings of its own as its
significand counts. -/
theorem scale_mul_add_significand (rank : Nat) :
    scale rank * blockSize + significand rank = rank := by
  simp only [scale, significand, blockSize]
  omega

/-- From the second block on, the significand of a rank has fifty-three binary digits. -/
theorem significand_bounds (rank : Nat) :
    significand rank < 2 * blockSize ∧ (scale rank ≠ 0 → blockSize ≤ significand rank) := by
  simp only [scale, significand, blockSize]
  omega

theorem log2_units (rank : Nat) : (units rank).log2 - 52 = scale rank := by
  obtain ⟨hlt, hge⟩ := significand_bounds rank
  rw [units, Nat.shiftLeft_eq]
  by_cases hscale : scale rank = 0
  · rw [hscale, pow_zero, mul_one]
    have hlog : (significand rank).log2 < 53 := by
      by_cases hzero : significand rank = 0
      · rw [hzero]
        decide
      · exact (Nat.log2_lt hzero).mpr hlt
    omega
  · have hlog : (significand rank * 2 ^ scale rank).log2 = 52 + scale rank := by
      have hpos : significand rank * 2 ^ scale rank ≠ 0 := by
        have hone := hge hscale
        rw [blockSize] at hone
        positivity
      rw [Nat.log2_eq_iff hpos, pow_add, show 52 + scale rank + 1 = 53 + scale rank by omega, pow_add]
      exact ⟨Nat.mul_le_mul_right _ (hge hscale), Nat.mul_lt_mul_of_pos_right hlt (by positivity)⟩
    rw [hlog]
    omega

theorem divHalfEven_mul (quotient : Nat) {denominator : Nat} (hpos : 0 < denominator) :
    divHalfEven (quotient * denominator) denominator = quotient := by
  simp [divHalfEven, Nat.mul_div_cancel _ hpos, hpos]

/-- A quotient that is the exact value at a rank rounds to this rank. -/
theorem nearest_eq {numerator denominator : Nat} (hrank : rank < infinity)
    (hpos : 0 < denominator)
    (hexact : numerator * unitsPerOne = units rank * denominator) :
    nearest numerator denominator = rank := by
  have hvalue : units rank * denominator = significand rank * denominator <<< scale rank := by
    rw [units, Nat.shiftLeft_eq, Nat.shiftLeft_eq]
    ring
  have hspacing : 0 < denominator <<< scale rank := by
    rw [Nat.shiftLeft_eq]
    positivity
  unfold nearest
  dsimp only
  rw [hexact, Nat.mul_div_cancel _ hpos, log2_units, hvalue, divHalfEven_mul _ hspacing,
    scale_mul_add_significand, if_pos hrank]

theorem nearest_le_infinity (numerator denominator : Nat) :
    nearest numerator denominator ≤ infinity := by
  unfold nearest
  dsimp only
  split
  next hlt => exact Nat.le_of_lt hlt
  next => exact Nat.le_refl _

theorem units_pos (hrank : 0 < rank) : 0 < units rank := by
  have hsum := scale_mul_add_significand rank
  obtain ⟨-, hge⟩ := significand_bounds rank
  have hpos : 0 < significand rank := by
    by_cases hscale : scale rank = 0
    · rw [hscale] at hsum
      omega
    · exact Nat.lt_of_lt_of_le (by decide) (hge hscale)
  rw [units, Nat.shiftLeft_eq]
  positivity

theorem units_lt (hrank : rank < infinity) : units rank < 2 ^ 2098 := by
  have hscale : scale rank ≤ 2045 := by
    simp only [scale, blockSize, infinity] at hrank ⊢
    omega
  have hlt : significand rank < 2 ^ 53 := (significand_bounds rank).1
  calc units rank = significand rank * 2 ^ scale rank := Nat.shiftLeft_eq _ _
    _ < 2 ^ 53 * 2 ^ scale rank := Nat.mul_lt_mul_of_pos_right hlt (by positivity)
    _ = 2 ^ (53 + scale rank) := (pow_add 2 53 (scale rank)).symm
    _ ≤ 2 ^ 2098 := pow_le_pow_right₀ one_le_two (by omega)

end Rank

namespace Decimal

/-! ## How many digits there are -/

theorem width_le_iff {n places : Nat} (hplaces : 0 < places) :
    width n ≤ places ↔ n < 10 ^ places :=
  Nat.length_toDigits_le_iff (by decide) hplaces

theorem width_mul_pow {n : Nat} (hpos : 0 < n) (places : Nat) :
    width (n * 10 ^ places) = width n + places := by
  induction places with
  | zero => simp
  | succ places ih =>
      have happend := @Nat.toDigits_append_toDigits 10 (n * 10 ^ places) 0 (by decide)
        (by positivity) (by decide)
      rw [Nat.add_zero] at happend
      rw [pow_succ, ← mul_assoc, mul_comm, width, ← happend, List.length_append]
      exact congrArg (· + 1) ih

/-! ## Rounding -/

theorem rank_le_infinity (decimal : Decimal) : decimal.rank ≤ Rank.infinity := by
  unfold rank
  split_ifs
  · exact Nat.zero_le _
  · exact Nat.le_refl _
  · exact Nat.zero_le _
  · exact Rank.nearest_le_infinity _ _

/-- A decimal number stays the same when all its digits are written out. -/
theorem rank_mul_pow (digits exponent : Nat) :
    rank ⟨digits * 10 ^ exponent, 0⟩ = rank ⟨digits, exponent⟩ := by
  by_cases hzero : digits = 0
  · simp [rank, hzero]
  · have hmagnitude : magnitude ⟨digits * 10 ^ exponent, 0⟩ = magnitude ⟨digits, exponent⟩ := by
      simp [magnitude, width_mul_pow (Nat.pos_of_ne_zero hzero)]
    have hquotient : quotient ⟨digits * 10 ^ exponent, 0⟩ = quotient ⟨digits, exponent⟩ := by
      simp [quotient]
    simp [rank, hmagnitude, hquotient, hzero]

variable {target : Nat}

/-- Between the two bounds on its size, a decimal number is rounded as the quotient it is. -/
theorem rank_eq_nearest {decimal : Decimal} (hdigits : decimal.digits ≠ 0)
    (hlow : -330 ≤ decimal.magnitude) (hhigh : decimal.magnitude ≤ 310) :
    decimal.rank = Rank.nearest decimal.quotient.1 decimal.quotient.2 := by
  rw [rank, if_neg hdigits, if_neg (Int.not_lt.mpr hhigh), if_neg (Int.not_lt.mpr hlow)]

theorem pow_five_mul_shiftLeft (n : Nat) : Nat.pow 5 n * 1 <<< n = 10 ^ n := by
  rw [Nat.one_shiftLeft]
  exact (Nat.mul_pow 5 2 n).symm

theorem quotient_neg (digits places : Nat) :
    quotient ⟨digits, -places⟩ = (digits, 10 ^ places) := by
  cases places with
  | zero => simp [quotient]
  | succ places => rfl

/-- A decimal number that is the exact value at a rank rounds to this rank. -/
theorem rank_eq {digits places : Nat} (hfinite : target < Rank.infinity) (hdigits : digits ≠ 0)
    (hlow : -330 ≤ (width digits - places : Int)) (hhigh : (width digits - places : Int) ≤ 310)
    (hone : Rank.unitsPerOne = 1 <<< places)
    (hexact : digits = Rank.units target * Nat.pow 5 places) : rank ⟨digits, -places⟩ = target := by
  rw [@rank_eq_nearest ⟨digits, -places⟩ hdigits hlow hhigh, quotient_neg]
  refine Rank.nearest_eq hfinite (by positivity) ?_
  rw [hexact, hone, Nat.mul_assoc, pow_five_mul_shiftLeft]

theorem digits_exact (target : Nat) : (exact target).digits = Rank.units target * Nat.pow 5 1074 :=
  rfl

/-- How many digits the exact value at a finite rank has. -/
theorem width_exact (hpos : 0 < target) (hfinite : target < Rank.infinity) :
    744 < width (exact target).digits ∧ width (exact target).digits ≤ 1384 := by
  have hunits := Rank.units_pos hpos
  rw [← Nat.not_le, width_le_iff (by decide), width_le_iff (by decide), digits_exact, Nat.not_lt]
  constructor
  · exact Nat.le_trans (by decide +kernel) (Nat.le_mul_of_pos_left (Nat.pow 5 1074) hunits)
  · calc Rank.units target * Nat.pow 5 1074
        < 2 ^ 2098 * Nat.pow 5 1074 :=
          Nat.mul_lt_mul_of_pos_right (Rank.units_lt hfinite) (by decide +kernel)
      _ ≤ 10 ^ 1384 := by decide +kernel

theorem rank_exact (hpos : 0 < target) (hfinite : target < Rank.infinity) :
    (exact target).rank = target := by
  obtain ⟨hnarrow, hwide⟩ := width_exact hpos hfinite
  -- The places and the digits get names, lest the power of five in the digits be computed.
  obtain ⟨places, hplaces, hvalue⟩ :
      ∃ places, places = 1074 ∧ (exact target).digits = Rank.units target * Nat.pow 5 places :=
    ⟨1074, rfl, digits_exact target⟩
  have hexact : exact target = ⟨(exact target).digits, -(places : Nat)⟩ := by
    rw [hplaces]
    rfl
  generalize (exact target).digits = digits at hnarrow hwide hvalue hexact
  rw [hexact]
  refine rank_eq hfinite ?_ ?_ ?_ ?_ hvalue
  · rintro rfl
    exact absurd hnarrow (by decide)
  · omega
  · omega
  · rw [hplaces, Rank.unitsPerOne]

theorem rank_search (hpos : 0 < target) (hfinite : target < Rank.infinity) (attempts : Nat)
    (exponent : Int) : (search target attempts exponent).rank = target := by
  induction attempts generalizing exponent with
  | zero => exact rank_exact hpos hfinite
  | succ attempts ih =>
      unfold search
      split
      next decimal hfound => simpa using List.find?_some hfound
      next => exact ih _

/-- The decimal number that a finite number is written as rounds to that number. -/
theorem rank_shortest (hfinite : target < Rank.infinity) : (shortest target).rank = target := by
  unfold shortest
  split
  next hzero => rw [hzero]; rfl
  next hne => exact rank_search (Nat.pos_of_ne_zero hne) hfinite _ _

end Decimal

end Formula
