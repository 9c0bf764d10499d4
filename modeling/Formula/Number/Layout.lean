import Formula.Number.Decimal

/-!
# Numbers as text

Both forms in which numbers are written show the shortest digits that read back; they differ in
when a power of ten is split off and in how a whole number is marked. The two choices make up a
`Layout`. Answers and programs use `Layout.plain`, lists of tokens use `Layout.marked`.
-/

namespace Formula

/-- The choices that the digits of a number leave open. -/
structure Layout where
  /-- Numbers whose leading digit stands at a power of ten from the first to below the second are
  written out in full, all others with a power of ten; without bounds, all are written out. -/
  positional : Option (Int × Int)
  /-- What closes a whole number that is written out. -/
  wholeMark : List Char

namespace Layout

/-- All digits are written out, and a whole number has no point. -/
def plain : Layout := ⟨none, []⟩

/-- Powers of ten from minus four to fifteen are written out, and a whole number ends in ".0". -/
def marked : Layout := ⟨some (-4, 16), ['.', '0']⟩

/-- Split digits at the point: those before it, of which there is at least one, and those after. -/
def splitAtPoint (digits : List Char) : Int → List Char × List Char
  | .ofNat exponent => (digits ++ List.replicate exponent '0', [])
  | .negSucc places =>
      let padded := List.replicate (places + 2 - digits.length) '0' ++ digits
      padded.splitAt (padded.length - (places + 1))

/-- Digits with the point in its place. -/
def writtenOut (layout : Layout) (digits : List Char) (exponent : Int) : List Char :=
  match splitAtPoint digits exponent with
  | (whole, []) => whole ++ layout.wholeMark
  | (whole, fraction) => whole ++ '.' :: fraction

/-- One digit, the others after a point, and the power of ten of the first digit. -/
def withPower (digits : List Char) (leading : Int) : List Char :=
  let power := 'e' :: (toString leading).toList
  match digits with
  | first :: second :: rest => first :: '.' :: second :: rest ++ power
  | short => short ++ power

/-- The text of a decimal number that is not negative. -/
def decimalText (layout : Layout) (decimal : Decimal) : List Char :=
  let digits := Nat.toDigits 10 decimal.digits
  let leading := decimal.magnitude - 1
  match layout.positional with
  | none => layout.writtenOut digits decimal.exponent
  | some (least, limit) =>
      if least ≤ leading ∧ leading < limit then layout.writtenOut digits decimal.exponent
      else withPower digits leading

/-- The text of a rank. -/
def rankText (layout : Layout) (rank : Nat) : List Char :=
  if rank = Rank.infinity then ['i', 'n', 'f'] else layout.decimalText (.shortest rank)

/-- The text of a number, as characters. "Not a number" has no sign; zero keeps its own. -/
def characters (layout : Layout) (x : Float) : List Char :=
  let rank := Rank.ofFloat x
  if Rank.infinity < rank then ['N', 'a', 'N']
  else if Rank.isNegative x then '-' :: layout.rankText rank
  else layout.rankText rank

/-- The text of a number. -/
def text (layout : Layout) (x : Float) : String := .ofList (layout.characters x)

end Layout

end Formula
