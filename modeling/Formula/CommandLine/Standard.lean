import Formula.CommandLine.Arguments
import Formula.CommandLine.Help
import Formula.CommandLine.Run
import Formula.Text.Terminal

/-!
# The standard surroundings

The surroundings in which nothing but the arguments says how fine the log is, and in which neither
output goes to a terminal. A line of the log gives the level of an event, where it comes from and
its message; the time is left out. Faults of arguments end a command with code 2.
-/

namespace Formula.CommandLine

/-! ## Arguments that ask for no task -/

def hint : String := "\n\nFor more information, try '" ++ Terminal.bold "--help" ++ "'.\n"

/-- The complaint about arguments that are no use of the program. -/
def misuseComplaint : String := Terminal.plain ("Usage: " ++ programHelp.usage ++ hint)

/-- The complaint about an assignment that cannot be read. The argument is quoted twice, in yellow
and within the wording of the fault. -/
def assignmentComplaint (argument : String) (fault : AssignmentFault) : String :=
  Terminal.plain (Terminal.bold "error:" ++ " invalid value '" ++ Terminal.yellow argument ++
    "' for '" ++ Terminal.bold "--set <NAME=VALUE>" ++ "': " ++ fault.message ++ hint)

def Halt.outcome : Halt → Outcome
  | misuse => ⟨2, "", misuseComplaint⟩
  | assignment argument fault => ⟨2, "", assignmentComplaint argument fault⟩
  | help topic => ⟨0, topic.helpText.text, ""⟩
  | version => ⟨0, "exprcalc 0.1.0\n", ""⟩

/-! ## Log and reports -/

def logLine (event : Event) : String :=
  "[" ++ event.level.name ++ " " ++ event.target ++ "] " ++ event.message ++ "\n"

def logText (threshold : Threshold) (events : List Event) : String :=
  String.join ((events.filter fun event => threshold.admits event.level).map logLine)

/-- A text of which every line after the first one begins with a margin. -/
def indented (margin text : String) : String :=
  .ofList (text.toList.flatMap fun c => if c = '\n' then c :: margin.toList else [c])

def reportText (failure cause : String) : String :=
  "Error: " ++ failure ++ "\n\nCaused by:\n    " ++ indented "    " cause ++ "\n"

def standard : Surroundings where
  readArguments arguments := (readArguments arguments).mapError Halt.outcome
  log := logText
  report := reportText

end Formula.CommandLine
