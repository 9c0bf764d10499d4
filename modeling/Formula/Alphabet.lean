/-!
# The alphabet of formulas

Operands are made of ASCII letters, digits, the underscore and the point; the operators and
parentheses are the other characters that a formula may hold. Any other character is a fault that
is reported by `Alphabet.describe`, which has names for the plain space and for controls.
-/

namespace Formula.Alphabet

/-- Whether a character may stand in an operand. -/
def isOperand (c : Char) : Bool := c.isAlphanum || c = '_' || c = '.'

/-- Whether an operand that begins with the character is a number. -/
def startsNumber (c : Char) : Bool := c.isDigit || c = '.'

/-- Whether a character is a control: one of the sixty-five in the Unicode category of that name. -/
def isControl (c : Char) : Bool := c.toNat ≤ 0x1f || (0x7f ≤ c.toNat && c.toNat ≤ 0x9f)

/-- A code point in capital hexadecimal digits, at least four of them. -/
def codePoint (c : Char) : List Char :=
  let digits := (Nat.toDigits 16 c.toNat).map Char.toUpper
  List.replicate (4 - digits.length) '0' ++ digits

/-- How a report names a character: the blanks of everyday text by a word, other controls by their
code points, and every other character by itself. -/
def describe (c : Char) : String :=
  if c = ' ' then "[space]"
  else if c = '\t' then "[tab]"
  else if c = '\n' then "[newline]"
  else if c = '\r' then "[return]"
  else if isControl c then .ofList (['[', 'U', '+'] ++ codePoint c ++ [']'])
  else .ofList [c]

end Formula.Alphabet
