/-!
# Operators and parentheses

The five operators all take two operands and group to the left. There are two levels of
precedence: `^` stands on one level with `*` and `/`.
-/

namespace Formula

/-- The operations of formulas, each on two numbers. -/
inductive Operator where
  | add
  | subtract
  | multiply
  | divide
  | power
deriving DecidableEq, Repr, Inhabited

namespace Operator

def character : Operator → Char
  | add => '+'
  | subtract => '-'
  | multiply => '*'
  | divide => '/'
  | power => '^'

def name : Operator → String
  | add => "Add"
  | subtract => "Subtract"
  | multiply => "Multiply"
  | divide => "Divide"
  | power => "Power"

def precedence : Operator → Nat
  | add | subtract => 2
  | multiply | divide | power => 3

/-- The value of an operation on two binary64 numbers. Nothing is guarded: a division by zero gives
an infinity or the result that is not a number. -/
def apply : Operator → (left right : Float) → Float
  | add, left, right => left + right
  | subtract, left, right => left - right
  | multiply, left, right => left * right
  | divide, left, right => left / right
  | power, left, right => Float.pow left right

end Operator

/-- The two halves of a pair of parentheses. -/
inductive Side where
  | opening
  | closing
deriving DecidableEq, Repr, Inhabited

namespace Side

def character : Side → Char
  | opening => '('
  | closing => ')'

def name : Side → String
  | opening => "OpenParen"
  | closing => "CloseParen"

end Side

/-- What stands between operands. -/
inductive Symbol where
  | operator (operator : Operator)
  | parenthesis (side : Side)
deriving DecidableEq, Repr, Inhabited

namespace Symbol

def character : Symbol → Char
  | operator op => op.character
  | parenthesis side => side.character

def name : Symbol → String
  | operator op => op.name
  | parenthesis side => side.name

/-- How tightly a symbol binds. A parenthesis binds less than every operator. -/
def precedence : Symbol → Nat
  | operator op => op.precedence
  | parenthesis _ => 1

def isParenthesis : Symbol → Bool
  | operator _ => false
  | parenthesis _ => true

def all : List Symbol :=
  [operator .add, operator .subtract, operator .multiply, operator .divide, operator .power,
    parenthesis .opening, parenthesis .closing]

/-- The symbol that a character stands for, if it stands for one. -/
def ofChar? (c : Char) : Option Symbol := all.find? fun symbol => symbol.character = c

theorem ofChar?_character (symbol : Symbol) : ofChar? symbol.character = some symbol := by
  rcases symbol with op | side
  · cases op <;> decide
  · cases side <;> decide

theorem character_of_ofChar? {c : Char} {symbol : Symbol} (h : ofChar? c = some symbol) :
    symbol.character = c := by
  simpa using List.find?_some h

end Symbol

end Formula
