import Formula.CommandLine.Assignment
import Formula.Engine

/-!
# What can be asked for

A command asks for one of four tasks. Its options are the same whatever the task is: how much talk
is wanted, and the settings of the engine.
-/

namespace Formula.CommandLine

/-- A task with everything that belongs to it. -/
inductive Task where
  | eval (formula : String) (assignments : List (String × Float))
  | convert (formula : String)
  | tokens (formula : String)
  | repl (assignments : List (String × Float)) (statistics : Bool)

/-- What can be asked for along with any task. -/
structure Options where
  /-- How often more talk is asked for. -/
  verbosity : Nat := 0
  noBraces : Bool := false
  noCache : Bool := false

/-- The engine that the options set up. -/
def Options.engine (options : Options) : Engine := ⟨!options.noBraces, !options.noCache⟩

/-- What the arguments of a command ask for. -/
structure Invocation where
  options : Options
  task : Task

end Formula.CommandLine
