import Formula.Number.Decimal

/-!
# Reading numbers

A numeral is digits with at most one point among, before or after them, and may go on with `e` or
`E` and a power of ten. A number as text is a numeral or one of the words `inf`, `infinity` and
`nan` in letters of either case, after an optional sign. Its value is the nearest binary64 number;
a numeral beyond the finite ones reads as infinity and is no fault.
-/

namespace Formula

namespace Numeral

/-- A sign, if there is one, as whether it is "minus", and what follows. -/
def splitSign : List Char → Bool × List Char
  | '-' :: rest => (true, rest)
  | '+' :: rest => (false, rest)
  | rest => (false, rest)

/-- The natural number that a non-empty list of digits stands for. -/
def natural? (text : List Char) : Option Nat :=
  if text ≠ [] ∧ text.all Char.isDigit then some (Nat.ofDigitChars 10 text 0) else none

/-- What may follow the digits of a numeral: nothing, or a power of ten with an optional sign. -/
def power? : List Char → Option Int
  | [] => some 0
  | letter :: rest =>
      if letter = 'e' ∨ letter = 'E' then
        let (negative, digits) := splitSign rest
        (natural? digits).map fun power => if negative then -(power : Int) else power
      else none

/-- The digits after a point, if the text goes on with one, and what follows. -/
def splitFraction : List Char → List Char × List Char
  | '.' :: rest => (rest.takeWhile Char.isDigit, rest.dropWhile Char.isDigit)
  | rest => ([], rest)

/-- The decimal number that a numeral stands for. -/
def decimal? (text : List Char) : Option Decimal :=
  let whole := text.takeWhile Char.isDigit
  let (fraction, rest) := splitFraction (text.dropWhile Char.isDigit)
  match whole ++ fraction with
  | [] => none
  | digits =>
      (power? rest).map fun power => ⟨Nat.ofDigitChars 10 digits 0, power - fraction.length⟩

/-- The rank of a number without a sign: a word for one that is not finite, or a numeral. -/
def rank? (text : List Char) : Option Nat :=
  match String.ofList (text.map Char.toLower) with
  | "inf" | "infinity" => some Rank.infinity
  | _ => (decimal? text).map Decimal.rank

/-- The number that a text stands for, if it is the text of one. -/
def read? (text : List Char) : Option Float :=
  let (negative, body) := splitSign text
  if String.ofList (body.map Char.toLower) = "nan" then some Rank.notANumber
  else (rank? body).map (Rank.toFloat negative)

end Numeral

end Formula
