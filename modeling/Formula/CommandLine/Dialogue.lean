import Formula.Engine

/-!
# Dialogues

In a dialogue every line is a formula and is answered by one line. Nothing but the cache is carried
from one line to the next. A line that cannot be read ends the dialogue.
-/

namespace Formula.CommandLine

/-- What became of a dialogue. -/
structure Transcript where
  /-- The answers, one line each, without the ends of lines. -/
  answers : List String
  events : List Event
  errors : Nat
  cache : Cache
  /-- Whether all lines could be read. -/
  isComplete : Bool

/-- The line that answers a formula. -/
def answerLine : Except Error Value → String
  | .ok value => value.text
  | .error error => "error: " ++ error.message

/-- What is reported about a line beyond what its evaluation reports. -/
def lineEvents (line : String) : Except Error Value → List Event
  | .ok _ => []
  | .error error => [.lineFailed line error]

def errorCount : Except Error Value → Nat
  | .ok _ => 0
  | .error _ => 1

/-- Answer lines one after another. -/
def converse (engine : Engine) (bindings : Bindings) (cache : Cache) :
    List (Option String) → Transcript
  | [] => ⟨[], [], 0, cache, true⟩
  | none :: _ => ⟨[], [], 0, cache, false⟩
  | some line :: rest =>
      let (traced, cache) := engine.evaluate cache line bindings
      let after := converse engine bindings cache rest
      { after with
        answers := answerLine traced.outcome :: after.answers
        events := traced.events ++ lineEvents line traced.outcome ++ after.events
        errors := errorCount traced.outcome + after.errors }

namespace Transcript

def printed (transcript : Transcript) : String :=
  String.join (transcript.answers.map fun answer => answer ++ "\n")

def statistics (transcript : Transcript) : String :=
  transcript.cache.size.repr ++ " cached formulas, " ++ transcript.cache.compilations.repr ++
    " compilations, " ++ transcript.cache.hits.repr ++ " cache hits, " ++ transcript.errors.repr ++
    " errors\n"

end Transcript

end Formula.CommandLine
