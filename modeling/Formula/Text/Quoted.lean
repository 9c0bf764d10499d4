import Formula.Text.Shapeless

/-!
# Quoted text

Texts within messages for the log stand between quotation marks, in a form that shows every
character: the marks themselves and the backslash are preceded by a backslash, and characters
without a shape of their own are named.
-/

namespace Formula.Text

/-- A character by the number of its code point, in hexadecimal digits between braces. -/
def byNumber (c : Char) : List Char :=
  ['\x5c', 'u', '\x7b'] ++ Nat.toDigits 16 c.toNat ++ ['\x7d']

/-- A character as it stands in quoted text. -/
def escaped (c : Char) : List Char :=
  if c = '\x00' then ['\x5c', '0']
  else if c = '\t' then ['\x5c', 't']
  else if c = '\r' then ['\x5c', 'r']
  else if c = '\n' then ['\x5c', 'n']
  else if c = '\x5c' ∨ c = '\x22' then ['\x5c', c]
  else if isShapeless c then byNumber c
  else [c]

def quoted (text : String) : String :=
  .ofList ('\x22' :: text.toList.flatMap escaped ++ ['\x22'])

end Formula.Text
