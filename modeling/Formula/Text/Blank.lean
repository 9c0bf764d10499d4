/-!
# Blank characters

The characters with the Unicode property "white space", which may surround a number.
-/

namespace Formula.Text

/-- Whether a character is white space in the sense of Unicode. -/
def isBlank (c : Char) : Bool :=
  (0x9 ≤ c.toNat && c.toNat ≤ 0xd) || (0x2000 ≤ c.toNat && c.toNat ≤ 0x200a) ||
    [0x20, 0x85, 0xa0, 0x1680, 0x2028, 0x2029, 0x202f, 0x205f, 0x3000].contains c.toNat

/-- A text without its last characters as long as they are of a kind. -/
def dropEndWhile (p : Char → Bool) (text : List Char) : List Char :=
  (text.reverse.dropWhile p).reverse

/-- A text without the blanks before and after it. -/
def trim (text : List Char) : List Char := dropEndWhile isBlank (text.dropWhile isBlank)

end Formula.Text
