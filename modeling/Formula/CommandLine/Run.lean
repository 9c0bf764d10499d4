import Formula.CommandLine.Dialogue
import Formula.CommandLine.Input
import Formula.CommandLine.Invocation

/-!
# Commands

A command is a function of its arguments and of the bytes on standard input. It ends with a code
and has written to standard output and standard error: results to the former, events and complaints
to the latter. Code 1 means that a formula or the input had a fault.

How arguments are read, how events become a log and how a failure is reported is left to the
surroundings of the program. It tells them how fine a log it would like, and for a failure what was
attempted and what the cause is.
-/

namespace Formula.CommandLine

/-- What a command leaves behind. -/
structure Outcome where
  code : Nat
  output : String
  complaints : String
deriving DecidableEq, Repr

/-- How fine a log the program wishes for. The environment may want another one. -/
inductive Threshold where
  | warnings
  | debug
  | trace
deriving DecidableEq, Repr

namespace Threshold

/-- Who asks for more talk once is told of the coarser events. -/
def ofVerbosity : Nat → Threshold
  | 0 => warnings
  | 1 => debug
  | _ => trace

/-- Whether events of a level are for the log. None of them is as grave as a warning. -/
def admits : Threshold → Level → Bool
  | warnings, _ => false
  | debug, level => level = .debug
  | trace, _ => true

end Threshold

/-- What the program is surrounded by in one run. Since a log may tell the time, two runs need not
have the same surroundings. -/
structure Surroundings where
  /-- What the arguments ask for, or what is left behind when they ask for no task. -/
  readArguments : List String → Except Outcome Invocation
  /-- The log of events for which a threshold was wished. -/
  log : Threshold → List Event → String
  /-- The report of a failure with its cause. -/
  report : String → String → String

namespace Surroundings

variable (surroundings : Surroundings)

def conclude {α : Type} (threshold : Threshold) (attempt formula : String) (print : α → String)
    (traced : Traced α) : Outcome :=
  let log := surroundings.log threshold traced.events
  let failure := "Failed to " ++ attempt ++ " '" ++ formula ++ "'"
  match traced.outcome with
  | .ok result => ⟨0, print result, log⟩
  | .error error => ⟨1, "", log ++ surroundings.report failure error.message⟩

def concludeDialogue (threshold : Threshold) (statistics : Bool) (transcript : Transcript) :
    Outcome :=
  let log := surroundings.log threshold transcript.events
  if transcript.isComplete then
    ⟨0, transcript.printed, log ++ if statistics then transcript.statistics else ""⟩
  else
    let report := surroundings.report "Failed to read stdin" "stream did not contain valid UTF-8"
    ⟨1, transcript.printed, log ++ report⟩

/-- Carry out what was asked for. -/
def carryOut (invocation : Invocation) (input : List UInt8) : Outcome :=
  let engine := invocation.options.engine
  let threshold := Threshold.ofVerbosity invocation.options.verbosity
  match invocation.task with
  | .eval formula assignments =>
      surroundings.conclude threshold "evaluate" formula (fun value => value.text ++ "\n")
        (engine.evaluate {} formula (.ofList assignments)).1
  | .convert formula =>
      surroundings.conclude threshold "compile" formula (fun text => text ++ "\n")
        (Engine.convert formula)
  | .tokens formula =>
      surroundings.conclude threshold "tokenize" formula
        (fun tokens => String.join (tokens.map fun token => token.description ++ "\n"))
        (Token.scan formula)
  | .repl assignments statistics =>
      surroundings.concludeDialogue threshold statistics
        (converse engine (.ofList assignments) {} (inputLines input))

/-- Carry out a command. -/
def run (arguments : List String) (input : List UInt8) : Outcome :=
  match surroundings.readArguments arguments with
  | .ok invocation => surroundings.carryOut invocation input
  | .error outcome => outcome

/-- Whether a command takes standard input. -/
def readsInput (arguments : List String) : Bool :=
  match surroundings.readArguments arguments with
  | .ok ⟨_, .repl _ _⟩ => true
  | _ => false

end Surroundings

end Formula.CommandLine
