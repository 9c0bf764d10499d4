import Formula.Error
import Formula.Program

/-!
# From tokens to programs

Tokens are taken one after another. Operands go straight into the program; an operator waits until
one comes that binds no tighter, or until its parenthesis closes. Operators that wait inside a
parenthesis are kept apart from those outside: each parenthesis that is still open has a level of
its own, and only the innermost level is ever looked at. The only faults are parentheses without a
partner; whether operators have their operands is not looked at here.
-/

namespace Formula

/-- The state of a conversion. -/
structure Yard where
  /-- The steps of the program so far, the latest first. -/
  emitted : List Instruction := []
  /-- The operators that wait at the innermost level, the latest first. -/
  waiting : List Operator := []
  /-- The operators that wait at the levels around it, one entry for each open parenthesis, from
  the inside to the outside. -/
  outer : List (List Operator) := []
deriving DecidableEq

namespace Yard

/-- The precedence that an operator must exceed to wait on top of others. A level where nothing
waits has that of a parenthesis. -/
def topPrecedence : List Operator → Nat
  | [] => 1
  | top :: _ => top.precedence

/-- The program so far, after operators that need not wait any longer. -/
def release (due : List Operator) (emitted : List Instruction) : List Instruction :=
  (due.map Instruction.apply).reverse ++ emitted

/-- Let an operator wait. Those that bind at least as tightly go into the program first, which
makes operators of one precedence group to the left. -/
def await (yard : Yard) (operator : Operator) : Yard :=
  if topPrecedence yard.waiting < operator.precedence then
    { yard with waiting := operator :: yard.waiting }
  else
    let isDue (top : Operator) : Bool := operator.precedence ≤ top.precedence
    { yard with
      emitted := release (yard.waiting.takeWhile isDue) yard.emitted
      waiting := operator :: yard.waiting.dropWhile isDue }

/-- Take one token. A closing parenthesis ends the innermost level; without one it has no
partner. -/
def step (yard : Yard) : Token → Except Error Yard
  | .operand operand => .ok { yard with emitted := .push operand :: yard.emitted }
  | .symbol (.operator operator) => .ok (yard.await operator)
  | .symbol (.parenthesis .opening) =>
      .ok { yard with waiting := [], outer := yard.waiting :: yard.outer }
  | .symbol (.parenthesis .closing) =>
      match yard.outer with
      | [] => .error (.unmatchedParenthesis .opening)
      | around :: outer => .ok ⟨release yard.waiting yard.emitted, around, outer⟩

/-- The program at the end of the tokens, unless a parenthesis is still open. -/
def finish (yard : Yard) : Except Error Program :=
  match yard.outer with
  | [] => .ok ⟨(release yard.waiting yard.emitted).reverse⟩
  | _ :: _ => .error (.unmatchedParenthesis .closing)

def run (yard : Yard) (tokens : List Token) : Except Error Yard := tokens.foldlM step yard

end Yard

def Program.ofTokens (tokens : List Token) : Except Error Program :=
  (Yard.run {} tokens).bind Yard.finish

end Formula
