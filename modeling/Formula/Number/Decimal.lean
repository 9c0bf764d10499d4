import Formula.Number.Rank

/-!
# Decimal numbers

A decimal number is a natural number of digits times a power of ten. `Decimal.rank` rounds it to
the nearest binary64 number; `Decimal.shortest` goes the other way and finds the decimal number of
fewest digits that rounds to a given one, and among those the nearest. Its search accepts a
candidate only when the candidate rounds back, and ends in the exact value, which rounds back
too: whatever the search answers, reading it gives the number that was written.
-/

namespace Formula

/-- The number `digits · 10 ^ exponent`. -/
structure Decimal where
  digits : Nat
  exponent : Int
deriving DecidableEq, Repr, Inhabited

namespace Decimal

/-- How many decimal digits a natural number has; zero has one. -/
def width (n : Nat) : Nat := (Nat.toDigits 10 n).length

def quotient : Decimal → Nat × Nat
  | ⟨digits, .ofNat exponent⟩ => (digits * Nat.pow 10 exponent, 1)
  | ⟨digits, .negSucc exponent⟩ => (digits, Nat.pow 10 (exponent + 1))

/-- The number lies below this power of ten and, unless it is zero, not below the power before. -/
def magnitude (decimal : Decimal) : Int := width decimal.digits + decimal.exponent

/-- The rank of the nearest binary64 number. A number of at least `10 ^ 310` is beyond the
finite ones and a number below `10 ^ -330` rounds to zero, so that the powers of ten that are
computed stay small whatever exponent was written. -/
def rank (decimal : Decimal) : Nat :=
  if decimal.digits = 0 then 0
  else if 310 < decimal.magnitude then Rank.infinity
  else if decimal.magnitude < -330 then 0
  else Rank.nearest decimal.quotient.1 decimal.quotient.2

/-- The value at a rank with all of its digits. -/
def exact (rank : Nat) : Decimal := ⟨Rank.units rank * Nat.pow 5 1074, -1074⟩

/-- The value at a rank as a quotient, counted in steps of `10 ^ exponent`. -/
def steps (rank : Nat) : Int → Nat × Nat
  | .ofNat exponent => (Rank.units rank, Rank.unitsPerOne * Nat.pow 10 exponent)
  | .negSucc exponent => (Rank.units rank * Nat.pow 10 (exponent + 1), Rank.unitsPerOne)

/-- The multiples of `10 ^ exponent` around the value at a rank, the nearer one first. The upper
one goes first on a tie. -/
def neighbours (rank : Nat) (exponent : Int) : List Decimal :=
  let (numerator, denominator) := steps rank exponent
  let below : Decimal := ⟨numerator / denominator, exponent⟩
  let above : Decimal := ⟨numerator / denominator + 1, exponent⟩
  if 2 * (numerator % denominator) < denominator then [below, above] else [above, below]

/-- A power of ten that no number of this rank exceeds: where the search for digits starts. -/
def ceiling (rank : Nat) : Int :=
  let whole := Rank.units rank / Rank.unitsPerOne
  if whole = 0 then 1 - (width (Rank.unitsPerOne / Rank.units rank) : Int) else width whole

/-- Look for a multiple of `10 ^ exponent` that rounds to the rank, then of smaller and smaller
powers of ten. A coarser power of ten leaves fewer digits, so the first hit has the fewest. -/
def search (rank : Nat) : Nat → Int → Decimal
  | 0, _ => exact rank
  | attempts + 1, exponent =>
      match (neighbours rank exponent).find? (fun decimal => decimal.rank = rank) with
      | some decimal => decimal
      | none => search rank attempts (exponent - 1)

/-- The decimal number of fewest digits that rounds to a finite rank, and of those the nearest.
Seventeen digits always suffice, so eighteen powers of ten are enough to look at. -/
def shortest (rank : Nat) : Decimal :=
  if rank = 0 then ⟨0, 0⟩ else search rank 18 (ceiling rank)

end Decimal

end Formula
