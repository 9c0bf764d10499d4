import Formula.Number.Layout
import Formula.Symbol
import Formula.Text.Quoted

/-!
# Tokens

A formula is a row of operands and symbols. An operand is a number or a name whose value the
bindings of an evaluation give.
-/

namespace Formula

inductive Operand where
  | number (value : Float)
  | name (word : String)
deriving BEq, DecidableEq, Inhabited

namespace Operand

def text : Operand → String
  | number value => Layout.plain.text value
  | name word => word

/-- An operand as it stands in a list of tokens. -/
def description : Operand → String
  | number value => "Number(" ++ Layout.marked.text value ++ ")"
  | name word => "Variable(" ++ Text.quoted word ++ ")"

/-- The name that an operand refers to, if it is not a number. -/
def name? : Operand → Option String
  | number _ => none
  | name word => some word

end Operand

/-- The smallest unit of a formula. -/
inductive Token where
  | operand (content : Operand)
  | symbol (content : Symbol)
deriving DecidableEq, Inhabited

namespace Token

def text : Token → String
  | operand content => content.text
  | symbol content => content.character.toString

/-- A token as it stands in a list of tokens. -/
def description : Token → String
  | operand content => content.description
  | symbol content => "Operator(" ++ content.name ++ ")"

def isSymbol : Token → Bool
  | operand _ => false
  | symbol _ => true

def isThe (wanted : Symbol) : Token → Bool
  | operand _ => false
  | symbol content => content = wanted

end Token

end Formula
