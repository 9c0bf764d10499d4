import Formula.Number.Numeral
import Formula.Text.Blank

/-!
# Assignments on the command line

An argument such as `price=12.5` gives a value to a name. The first equals sign separates the two;
the name is taken as it stands, and blanks around the number do not count.
-/

namespace Formula.CommandLine

/-- What is wrong with an assignment. -/
inductive AssignmentFault where
  | noEqualsSign (argument : String)
  | noName (argument : String)
  | noNumber (value name : String)
deriving DecidableEq, Repr

def AssignmentFault.message : AssignmentFault → String
  | noEqualsSign argument => "expected NAME=VALUE, got '" ++ argument ++ "'"
  | noName argument => "missing variable name in '" ++ argument ++ "'"
  | noNumber value name => "invalid number '" ++ value ++ "' for " ++ name

/-- The name and the number of an assignment. -/
def readAssignment (argument : String) : Except AssignmentFault (String × Float) :=
  let name := argument.toList.takeWhile (· ≠ '=')
  match argument.toList.dropWhile (· ≠ '=') with
  | [] => .error (.noEqualsSign argument)
  | _ :: value =>
      if name = [] then .error (.noName argument)
      else
        match Numeral.read? (Text.trim value) with
        | some number => .ok (.ofList name, number)
        | none => .error (.noNumber (.ofList value) (.ofList name))

end Formula.CommandLine
