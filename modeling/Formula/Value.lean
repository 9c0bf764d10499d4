import Formula.Number.Layout

/-!
# Values

The value of a formula is a number, or nothing if there is no operand and no operator in it.
-/

namespace Formula

inductive Value where
  | number (value : Float)
  | empty
deriving DecidableEq, Inhabited

namespace Value

def number? : Value → Option Float
  | number value => some value
  | empty => none

def isEmpty : Value → Bool
  | number _ => false
  | empty => true

def text : Value → String
  | number value => Layout.plain.text value
  | empty => ""

end Value

end Formula
