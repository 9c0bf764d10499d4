import Formula.Symbol

/-!
# What can be wrong with a formula

The first four errors are faults of the text and arise when a formula is compiled; the last two
arise when its program is run.
-/

namespace Formula

/-- Why there is no value. -/
inductive Error where
  /-- A character that no formula holds, as a report describes it. -/
  | invalidCharacter (description : String)
  /-- An operand that begins like a number and is none. -/
  | malformedNumber (text : String)
  /-- An operand and a parenthesis that touch. -/
  | missingOperator (near : String)
  /-- A parenthesis without its partner; the side is the one that is missing. -/
  | unmatchedParenthesis (missing : Side)
  | undefinedVariable (name : String)
  /-- A program that does not come down to a single value. -/
  | internal (detail : String)
deriving DecidableEq, Repr, Inhabited

namespace Error

/-- The kind of an error, without what it is about. -/
def kind : Error → String
  | invalidCharacter _ => "InvalidCharacter"
  | malformedNumber _ => "MalformedNumber"
  | missingOperator _ => "MissingOperator"
  | unmatchedParenthesis _ => "UnmatchedParenthesis"
  | undefinedVariable _ => "UndefinedVariable"
  | internal _ => "Internal"

/-- Whether an error is about a program and not about what a formula says. -/
def isInternal : Error → Bool
  | internal _ => true
  | _ => false

def missingSide : Side → String
  | .opening => "missing open `(`"
  | .closing => "missing close `)`"

def message : Error → String
  | invalidCharacter description => "Invalid character: " ++ description
  | malformedNumber text => "Malformed number: " ++ text
  | missingOperator near => "Missing operator near " ++ near
  | unmatchedParenthesis missing => "Unmatched parenthesis: " ++ missingSide missing
  | undefinedVariable name => "Undefined variable: " ++ name
  | internal detail => "Internal error: " ++ detail

end Error

end Formula
