/-!
# Binary64 numbers by rank

Listed in increasing order from zero, the finite non-negative binary64 numbers are numbered by
their own bit patterns: this number is the *rank*. Every one of them is a whole multiple of the
least positive one, so that its exact value is a count of such *units*, and rounding a quotient
to the nearest number is a division of natural numbers. The main statements to rely on are the
definitions `Rank.units`, the exact value of a rank, and `Rank.nearest`, the rank that is nearest
to a quotient; infinity stands right after the last finite rank and takes what lies beyond.
-/

namespace Formula

/-- A quotient rounded to the nearest whole number; a tie goes to the even neighbour. -/
def divHalfEven (numerator denominator : Nat) : Nat :=
  let quotient := numerator / denominator
  let twice := 2 * (numerator % denominator)
  if twice < denominator ∨ (twice = denominator ∧ quotient % 2 = 0) then quotient
  else quotient + 1

namespace Rank

/-- How many ranks share one spacing. The first such block, and the one after it, are spaced by
one unit; each later block is spaced twice as wide as the block before. -/
def blockSize : Nat := 0x10000000000000

/-- The rank of infinity, right after that of the greatest finite number. -/
def infinity : Nat := 0x7ff0000000000000

/-- How many ranks there are per sign, infinity and the patterns of "not a number" included. -/
def signSize : Nat := 0x8000000000000000

/-- How many units make one: the unit is two to the power of minus 1074. -/
def unitsPerOne : Nat := 1 <<< 1074

/-- The binary logarithm of the spacing at a rank, in units. -/
def scale (rank : Nat) : Nat := rank / blockSize - 1

/-- The number at a rank, counted in spacings of that rank. -/
def significand (rank : Nat) : Nat := rank - scale rank * blockSize

/-- The exact value at a rank, counted in units. -/
def units (rank : Nat) : Nat := significand rank <<< scale rank

/-- The rank of the binary64 number nearest to a quotient, the one with the even significand on
a tie. The quotient in units fixes the spacing; its nearest multiple of that spacing is one
addition away from the rank, and a carry into the next block is right without further care. -/
def nearest (numerator denominator : Nat) : Nat :=
  let scaled := numerator * unitsPerOne
  let spacing := (scaled / denominator).log2 - 52
  let rank := spacing * blockSize + divHalfEven scaled (denominator <<< spacing)
  if rank < infinity then rank else infinity

/-- The rank of a number without its sign. "Not a number" lies above `infinity`. -/
def ofFloat (x : Float) : Nat := x.toBits.toNat % signSize

/-- Whether a number carries the sign "minus", negative zero included. -/
def isNegative (x : Float) : Bool := decide (signSize ≤ x.toBits.toNat)

/-- The number with a given sign and rank. -/
def toFloat (negative : Bool) (rank : Nat) : Float :=
  .ofBits (.ofNat (if negative then signSize + rank else rank))

/-- The result that is not a number. -/
def notANumber : Float := .ofBits 0x7ff8000000000000

end Rank

end Formula
