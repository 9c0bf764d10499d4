import Formula.Bindings
import Formula.Error
import Formula.Program
import Formula.Value

/-!
# Running programs

A program runs on a stack of numbers. It has a value if exactly one number is left at the end, and
a program without steps has the empty value. A program that was not made from a well-formed formula
may find too few numbers on the stack or leave too many; both are errors, and neither is a crash.
-/

namespace Formula.Program

def underflow (program : Program) (operator : Operator) : Error :=
  .internal ("stack underflow at operator '" ++ operator.character.toString ++ "' in `" ++
    program.text ++ "`")

def leftover (program : Program) (count : Nat) : Error :=
  .internal (count.repr ++ " values left on the stack after `" ++ program.text ++ "`")

/-- One step on a stack whose first element is the topmost. The value on top is the right one of
an operation. The program is at hand for reports only. -/
def step (program : Program) (bindings : Bindings) (stack : List Float) :
    Instruction → Except Error (List Float)
  | .push (.number value) => .ok (value :: stack)
  | .push (.name name) =>
      match bindings name with
      | some value => .ok (value :: stack)
      | none => .error (.undefinedVariable name)
  | .apply operator =>
      match stack with
      | right :: left :: rest => .ok (operator.apply left right :: rest)
      | _ => .error (program.underflow operator)

/-- The value of a program under bindings. -/
def run (program : Program) (bindings : Bindings) : Except Error Value :=
  if program.isEmpty then .ok .empty
  else do
    match ← program.instructions.foldlM (program.step bindings) [] with
    | [result] => .ok (.number result)
    | stack => .error (program.leftover stack.length)

end Formula.Program
