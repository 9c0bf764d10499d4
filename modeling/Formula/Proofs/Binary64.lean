import Formula.Number.Rank
import Mathlib

/-!
# Ranks and the bits of numbers

A number is told by its sign and its rank, which are the first bit of its pattern and the others.
The patterns whose rank is at most that of infinity are those of numbers, and no two of them are the
same number. What lies above is "not a number", which has a single pattern here.
-/

namespace Formula.Rank

open Float.Model (Format)
open Float.Model.UnpackedFloat (unpack unpackExponent unpackMantissa)

variable {bits : UInt64} {x : Float} {rank : Nat}

/-! ## Parts of a bit pattern -/

theorem toNat_unpackExponent (bits : UInt64) :
    (@unpackExponent Format.binary64 bits.toBitVec).toNat = bits.toNat / 2 ^ 52 % 2 ^ 11 := by
  unfold unpackExponent
  rw [BitVec.toNat_cast, BitVec.extractLsb_toNat, Nat.shiftRight_eq_div_pow]
  rfl

theorem toNat_unpackMantissa (bits : UInt64) :
    (@unpackMantissa Format.binary64 bits.toBitVec).toNat = bits.toNat % 2 ^ 52 := by
  unfold unpackMantissa
  rw [BitVec.toNat_cast, BitVec.extractLsb_toNat, Nat.shiftRight_zero]
  rfl

/-- The exponent is all ones from infinity on. -/
theorem unpackExponent_eq_iff :
    @unpackExponent Format.binary64 bits.toBitVec = -BitVec.ofNat Format.binary64.exponentBits 1 ↔
      infinity ≤ bits.toNat % signSize := by
  have hones : (-BitVec.ofNat Format.binary64.exponentBits 1).toNat = 2 ^ 11 - 1 := rfl
  rw [← BitVec.toNat_inj, toNat_unpackExponent, hones, infinity, signSize]
  omega

theorem unpackMantissa_eq_iff :
    @unpackMantissa Format.binary64 bits.toBitVec =
        BitVec.ofNat Format.binary64.mantissaBitsWithoutImplicit 0 ↔
      bits.toNat % blockSize = 0 := by
  rw [← BitVec.toNat_inj, toNat_unpackMantissa]
  rfl

/-! ## Numbers and their patterns -/

theorem toBits_ofBits (hbits : bits.toNat % signSize ≤ infinity) :
    (Float.ofBits bits).toBits = bits := by
  have hvalid : Format.binary64.Valid bits.toBitVec := by
    refine ⟨fun hexponent hmantissa => absurd ?_ hmantissa⟩
    rw [unpackExponent_eq_iff] at hexponent
    rw [unpackMantissa_eq_iff]
    simp only [infinity, signSize, blockSize] at hbits hexponent ⊢
    omega
  exact UInt64.toBitVec_inj.mp (Float.Model.UnpackedFloat.pack_unpack_of_valid hvalid)

theorem isFinite_iff : x.isFinite = true ↔ ofFloat x < infinity := by
  have hexponent := @unpackExponent_eq_iff x.toBits
  rw [← Nat.not_le]
  change (unpack Format.binary64 x.toBits.toBitVec).isFinite = true ↔
    ¬ infinity ≤ x.toBits.toNat % signSize
  rw [← hexponent]
  unfold unpack
  dsimp only
  split
  next hones =>
    refine iff_of_false ?_ (not_not_intro hones)
    split <;> exact Bool.false_ne_true
  next hones =>
    refine iff_of_true ?_ hones
    split
    · split <;> rfl
    · rfl

theorem isNaN_iff : x.isNaN = true ↔ infinity < ofFloat x := by
  have hexponent := @unpackExponent_eq_iff x.toBits
  have hmantissa := @unpackMantissa_eq_iff x.toBits
  have habove : infinity < ofFloat x ↔ infinity ≤ x.toBits.toNat % signSize ∧
      ¬ x.toBits.toNat % blockSize = 0 := by
    simp only [ofFloat, infinity, signSize, blockSize]
    omega
  rw [habove, ← hexponent, ← hmantissa]
  change (unpack Format.binary64 x.toBits.toBitVec).isNaN = true ↔ _
  unfold unpack
  dsimp only
  split
  next hones =>
    split
    next hzero => exact iff_of_false Bool.false_ne_true fun h => h.2 hzero
    next hzero => exact iff_of_true rfl ⟨hones, hzero⟩
  next hones =>
    refine iff_of_false ?_ fun h => hones h.1
    split
    · split <;> exact Bool.false_ne_true
    · exact Bool.false_ne_true

/-- The sign and the rank of a number with a given sign and rank. -/
theorem toBits_toFloat (negative : Bool) (hrank : rank ≤ infinity) :
    ofFloat (toFloat negative rank) = rank ∧ isNegative (toFloat negative rank) = negative := by
  have hsize : rank < signSize := Nat.lt_of_le_of_lt hrank (by decide)
  have hnat : (UInt64.ofNat (if negative then signSize + rank else rank)).toNat =
      if negative then signSize + rank else rank := by
    rw [UInt64.toNat_ofNat']
    apply Nat.mod_eq_of_lt
    rw [signSize] at *
    split <;> omega
  have hbits : (toFloat negative rank).toBits =
      UInt64.ofNat (if negative then signSize + rank else rank) := by
    apply toBits_ofBits
    rw [hnat]
    split
    · rwa [Nat.add_mod_left, Nat.mod_eq_of_lt hsize]
    · rwa [Nat.mod_eq_of_lt hsize]
  rw [ofFloat, isNegative, hbits, hnat]
  cases negative
  · simp [Nat.mod_eq_of_lt hsize, hsize]
  · simp [Nat.mod_eq_of_lt hsize]

/-- A number is the one of its own sign and rank. -/
theorem toFloat_ofFloat (x : Float) : toFloat (isNegative x) (ofFloat x) = x := by
  have hnat : (if isNegative x then signSize + ofFloat x else ofFloat x) = x.toBits.toNat := by
    have hlt := x.toBits.toNat_lt
    by_cases hsign : signSize ≤ x.toBits.toNat
    · rw [isNegative, decide_eq_true hsign, if_pos rfl]
      simp only [ofFloat, signSize] at hsign ⊢
      omega
    · rw [isNegative, decide_eq_false hsign, if_neg Bool.false_ne_true]
      exact Nat.mod_eq_of_lt (Nat.lt_of_not_le hsign)
  rw [toFloat, hnat, UInt64.ofNat_toNat, Float.ofBits_toBits]

/-- Numbers without a sign are equal only if they have the same bits. -/
theorem beq_iff {y : Float} (hx : isNegative x = false) (hxnan : x.isNaN = false)
    (hy : isNegative y = false) (hynan : y.isNaN = false) : (x == y) = true ↔ x = y := by
  have hzero : isNegative (-0) = true := by decide +kernel
  rw [Float.isNaN_eq_decide_eq_nan, decide_eq_false_iff_not] at hxnan hynan
  rw [Float.beq_iff_ne_nan_and_eq]
  constructor
  · rintro ⟨-, -, heq | ⟨-, rfl⟩ | ⟨rfl, -⟩⟩
    · exact heq
    · rw [hzero] at hy
      cases hy
    · rw [hzero] at hx
      cases hx
  · intro heq
    exact ⟨hxnan, hynan, .inl heq⟩

end Formula.Rank
