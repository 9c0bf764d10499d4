import Formula.Token

/-!
# Programs

A program is a formula in the order of its evaluation: operands first, then the operator that works
on them. No parentheses are left; the order alone says what belongs together.
-/

namespace Formula

/-- A step of an evaluation. -/
inductive Instruction where
  /-- Put the value of an operand on the stack. -/
  | push (operand : Operand)
  /-- Replace the two topmost values by the value of an operation on them. -/
  | apply (operator : Operator)
deriving BEq, DecidableEq, Inhabited

namespace Instruction

def token : Instruction → Token
  | push operand => .operand operand
  | apply operator => .symbol (.operator operator)

def name? : Instruction → Option String
  | push operand => operand.name?
  | apply _ => none

end Instruction

/-- The steps of an evaluation, in order. Two programs are compared step by step, numbers by the
equality of numbers. -/
structure Program where
  instructions : List Instruction
deriving BEq, DecidableEq, Inhabited

namespace Program

def tokens (program : Program) : List Token := program.instructions.map Instruction.token

/-- A program as text: its tokens with a space between each two. -/
def text (program : Program) : String := " ".intercalate (program.tokens.map Token.text)

def length (program : Program) : Nat := program.instructions.length

def isEmpty (program : Program) : Bool := program.instructions.isEmpty

/-- The names that a program refers to, each once, in order of first use. -/
def names (program : Program) : List String :=
  (program.instructions.filterMap Instruction.name?).eraseDups

end Program

end Formula
