import Formula.CommandLine.Run
import Mathlib.Data.List.Forall2

/-!
# What is relied on of the surroundings

The surroundings read the arguments, keep the log and report failures in ways of their own. Each of
the properties below is one that a result about commands may rely on; a result names those that it
needs, and holds whatever the surroundings are otherwise like.
-/

namespace Formula.CommandLine

/-- Bindings that are well-formed, and the assignments that they make. -/
def Binds (bindings : List String) (assignments : List (String × Float)) : Prop :=
  List.Forall₂ (fun binding assignment => readAssignment binding = .ok assignment)
    bindings assignments

namespace Surroundings

variable (surroundings : Surroundings)

/-- The surroundings understand arguments as options, bindings and a task, which gets the
assignments that the bindings make. Nothing is said about bindings that are not well-formed. -/
def Understands (arguments : List String) (options : Options) (bindings : List String)
    (task : List (String × Float) → Task) : Prop :=
  ∀ assignments, Binds bindings assignments →
    surroundings.readArguments arguments = .ok ⟨options, task assignments⟩

/-- Events that the threshold does not admit are not in the log: the environment asks for no finer
one. -/
def Discreet : Prop :=
  ∀ threshold events, (∀ event ∈ events, threshold.admits event.level = false) →
    surroundings.log threshold events = ""

/-- A log consists of whole lines. -/
def WritesLines : Prop :=
  ∀ threshold events, surroundings.log threshold events = "" ∨
    ∃ text, surroundings.log threshold events = text ++ "\n"

/-- A cause of one line is set below the failure. -/
def ReportsCauses : Prop :=
  ∀ failure cause, '\n' ∉ cause.toList →
    surroundings.report failure cause =
      "Error: " ++ failure ++ "\n\nCaused by:\n    " ++ cause ++ "\n"

/-- What commands leave behind agrees: the code and the output, and the complaints if both
surroundings put events and failures into the same words. -/
structure Agree (elsewhere : Surroundings) (outcome other : Outcome) : Prop where
  code : outcome.code = other.code
  output : outcome.output = other.output
  complaints : surroundings.log = elsewhere.log → surroundings.report = elsewhere.report →
    outcome.complaints = other.complaints

variable {surroundings}

theorem Discreet.log_warnings (hdiscreet : surroundings.Discreet) (events : List Event) :
    surroundings.log .warnings events = "" :=
  hdiscreet .warnings events fun _ _ => rfl

theorem agree_conclude (elsewhere : Surroundings) {α : Type} (threshold : Threshold)
    (attempt formula : String) (print : α → String) (traced : Traced α) :
    surroundings.Agree elsewhere (surroundings.conclude threshold attempt formula print traced)
      (elsewhere.conclude threshold attempt formula print traced) := by
  unfold conclude
  cases traced.outcome with
  | ok result => exact ⟨rfl, rfl, fun hlog _ => by rw [hlog]⟩
  | error error => exact ⟨rfl, rfl, fun hlog hreport => by rw [hlog, hreport]⟩

theorem agree_concludeDialogue (elsewhere : Surroundings) (threshold : Threshold)
    (statistics : Bool) (transcript : Transcript) :
    surroundings.Agree elsewhere (surroundings.concludeDialogue threshold statistics transcript)
      (elsewhere.concludeDialogue threshold statistics transcript) := by
  unfold concludeDialogue
  split
  · exact ⟨rfl, rfl, fun hlog _ => by rw [hlog]⟩
  · exact ⟨rfl, rfl, fun hlog hreport => by rw [hlog, hreport]⟩

/-- The surroundings have a part in the complaints only. -/
theorem agree_carryOut (elsewhere : Surroundings) (invocation : Invocation)
    (input : List UInt8) :
    surroundings.Agree elsewhere (surroundings.carryOut invocation input)
      (elsewhere.carryOut invocation input) := by
  obtain ⟨options, task⟩ := invocation
  cases task with
  | eval formula assignments => exact agree_conclude elsewhere _ _ _ _ _
  | convert formula => exact agree_conclude elsewhere _ _ _ _ _
  | tokens formula => exact agree_conclude elsewhere _ _ _ _ _
  | repl assignments statistics => exact agree_concludeDialogue elsewhere _ _ _

/-- A command carries out what its arguments are understood as. -/
theorem Understands.run_eq {arguments bindings : List String} {options : Options}
    {assignments : List (String × Float)} {task : List (String × Float) → Task}
    (hunderstood : surroundings.Understands arguments options bindings task)
    (hbinds : Binds bindings assignments) (input : List UInt8) :
    surroundings.run arguments input =
      surroundings.carryOut ⟨options, task assignments⟩ input := by
  rw [run, hunderstood assignments hbinds]

end Surroundings

end Formula.CommandLine
