import Formula.Proofs.Interruption
import Formula.Proofs.Lexicon

/-!
# Bindings on the command line

The assignments of a command are taken as a list, in which a name may occur more than once. What a
name stands for is the value of its last occurrence, and an answer depends on the names that occur
in its formula only. Lists that cannot be told apart in this way make no difference to a command,
whether its answers are values or errors. The names that formulas can mention are those that can be
written as operands, so that assignments to others never count.
-/

namespace Formula

open Lexeme (Reads split)

/-! ## Lists of assignments -/

namespace Bindings

/-- The value that a name has in its last assignment. -/
def latest (assignments : List (String × Float)) (name : String) : Option Float :=
  (assignments.filter fun assignment => assignment.1 = name).getLast?.map Prod.snd

theorem ofList_eq_latest (assignments : List (String × Float)) :
    ofList assignments = latest assignments := by
  funext name
  induction assignments with
  | nil => rfl
  | cons assignment later ih =>
      obtain ⟨given, value⟩ := assignment
      rw [ofList, ih]
      unfold latest
      by_cases hname : given = name
      · cases hlater : (later.filter fun assignment => assignment.1 = name).getLast? <;>
          simp [hname, hlater, List.getLast?_cons]
      · cases hlater : (later.filter fun assignment => assignment.1 = name).getLast? <;>
          simp [hname, hlater]

/-- Lists of assignments that say the same about the names that are used: assignments to different
names may change places, and one may be left out or put in if a later one has its name or if its
name is not used. -/
inductive Indistinct (used : String → Prop) :
    List (String × Float) → List (String × Float) → Prop where
  | reordered {first second : List (String × Float)}
      (hsame : ∀ name, first.filter (fun assignment => assignment.1 = name) =
        second.filter fun assignment => assignment.1 = name) : Indistinct used first second
  | shadowed (before : List (String × Float)) {assignment later : String × Float}
      {after : List (String × Float)} (hlater : later ∈ after) (hname : later.1 = assignment.1) :
      Indistinct used (before ++ assignment :: after) (before ++ after)
  | unused (before : List (String × Float)) {assignment : String × Float}
      (after : List (String × Float)) (hunused : ¬ used assignment.1) :
      Indistinct used (before ++ assignment :: after) (before ++ after)
  | symm {first second : List (String × Float)} (hfirst : Indistinct used first second) :
      Indistinct used second first
  | trans {first second third : List (String × Float)} (hfirst : Indistinct used first second)
      (hsecond : Indistinct used second third) : Indistinct used first third

theorem Indistinct.latest_eq {used : String → Prop} {first second : List (String × Float)}
    (hindistinct : Indistinct used first second) {name : String} (hused : used name) :
    latest first name = latest second name := by
  induction hindistinct with
  | reordered hsame => rw [latest, hsame, latest]
  | @shadowed before assignment later after hlater hname =>
      unfold latest
      by_cases heq : assignment.1 = name
      · have hsome : (after.filter fun assignment => assignment.1 = name) ≠ [] := by
          apply List.ne_nil_of_mem
          exact List.mem_filter.mpr ⟨hlater, by simp [hname, heq]⟩
        rw [List.append_cons]
        simp only [List.filter_append _ after, List.getLast?_append_of_ne_nil _ hsome]
      · simp [heq]
  | unused before after hunused =>
      have hne : ∀ assignment : String × Float, ¬ used assignment.1 → assignment.1 ≠ name := by
        rintro assignment hunused rfl
        exact hunused hused
      simp [latest, hne _ hunused]
  | symm _ ih => exact ih.symm
  | trans _ _ ih ih' => exact ih.trans ih'

end Bindings

/-! ## Names of formulas -/

/-- The names in the program of a text are the rows of operand characters in the text that do not
begin like a number. -/
theorem Program.mem_names_iff_maximalRun {text : String} {program : Program}
    (hprogram : ofText text = .ok program) {name : String} :
    name ∈ program.names ↔
      (∃ before after, MaximalRun text.toList before name.toList after) ∧
        name.toList.head?.any Alphabet.startsNumber = false := by
  rw [ofText_eq] at hprogram
  obtain ⟨tokens, htokens, hconverted⟩ := Except.bind_eq_ok_iff.mp hprogram
  have hreads := (Token.tokenize_eq_ok_iff.mp htokens).1
  rw [mem_names_iff, ((perm_of_ofTokens hconverted).filterMap _).mem_iff,
    MaximalRun.exists_iff_mem_split, ← Token.name_mem_iff hreads, List.filterMap_filterMap,
    List.mem_filterMap]
  constructor
  · rintro ⟨(number | word) | operator | side, htoken, hfound⟩
    · cases hfound
    · obtain rfl := Option.some.inj hfound
      exact htoken
    · cases hfound
    · cases hfound
  · intro htoken
    exact ⟨_, htoken, rfl⟩

/-- The names that an engine looks for when it evaluates a text. -/
def Engine.namesOf (engine : Engine) (text : String) : List String :=
  match Program.ofText (engine.source text) with
  | .ok program => program.names
  | .error _ => []

/-- A name that is looked for is written with operand characters and does not begin like a number. -/
theorem Engine.isName_of_mem_namesOf {engine : Engine} {text name : String}
    (hname : name ∈ engine.namesOf text) :
    (∀ c ∈ name.toList, Alphabet.isOperand c = true) ∧
      name.toList.head?.any Alphabet.startsNumber = false := by
  unfold namesOf at hname
  split at hname
  next program hprogram =>
    obtain ⟨⟨before, after, hrun⟩, hstart⟩ :=
      (Program.mem_names_iff_maximalRun hprogram).mp hname
    exact ⟨hrun.isOperand, hstart⟩
  next => simp at hname

/-- An evaluation depends on the bindings of the names that it looks for only. -/
theorem Cache.Follows.evaluate_congr {engine : Engine} {cache : Cache}
    (hfollows : cache.Follows (programOf engine.unwrapBraces)) {text : String}
    {bindings bindings' : Bindings}
    (hagree : ∀ name ∈ engine.namesOf text, bindings name = bindings' name) :
    engine.evaluate cache text bindings = engine.evaluate cache text bindings' := by
  have hcompile := hfollows.outcome_compile text
  unfold Engine.evaluate
  split
  next => rfl
  next =>
    generalize engine.compile cache text = compiled at hcompile
    obtain ⟨⟨outcome, events⟩, cache'⟩ := compiled
    unfold Engine.namesOf at hagree
    change outcome = Program.ofText (engine.source text) at hcompile
    rw [← hcompile] at hagree
    cases outcome with
    | error error => rfl
    | ok program =>
        have hrun : program.run bindings = program.run bindings' := Program.run_congr hagree
        simp only [Traced.andThen, hrun]

namespace CommandLine

/-! ## Commands and the lists they are given -/

theorem converse_congr {engine : Engine} {bindings bindings' : Bindings} {cache : Cache}
    (hfollows : cache.Follows (programOf engine.unwrapBraces)) {lines : List (Option String)}
    (hagree : ∀ formula ∈ heard lines, ∀ name ∈ engine.namesOf formula,
      bindings name = bindings' name) :
    converse engine bindings cache lines = converse engine bindings' cache lines := by
  induction lines generalizing cache with
  | nil => rfl
  | cons line lines ih =>
      cases line with
      | none => rfl
      | some formula =>
          rw [heard, List.forall_mem_cons] at hagree
          have hfirst := hfollows.evaluate_congr hagree.1
          have hlater := ih (hfollows.evaluate formula bindings) hagree.2
          simp only [converse, ← hfirst, hlater]

theorem Surroundings.output_concludeDialogue (surroundings : Surroundings) (threshold : Threshold)
    (statistics : Bool) (transcript : Transcript) :
    (surroundings.concludeDialogue threshold statistics transcript).output =
      transcript.printed := by
  unfold concludeDialogue
  split <;> rfl

section latest

variable {surroundings : Surroundings} {options : Options} {bindings arguments : List String}
  {assignments : List (String × Float)} (hbinds : Binds bindings assignments)
include hbinds

theorem run_evaluation_latest {formula : String}
    (hunderstood : surroundings.Understands arguments options bindings (.eval formula))
    (input : List UInt8) :
    let outcome := surroundings.run arguments input
    match (options.engine.evaluate {} formula (.latest assignments)).1.outcome with
    | .ok value => outcome.code = 0 ∧ outcome.output = value.text ++ "\n"
    | .error error => outcome.code = 1 ∧ outcome.output = "" ∧
        ∃ log, outcome.complaints =
          log ++ surroundings.report ("Failed to evaluate '" ++ formula ++ "'") error.message := by
  intro outcome
  have hrun : outcome =
      surroundings.conclude (.ofVerbosity options.verbosity) "evaluate" formula
        (fun value => value.text ++ "\n")
        (options.engine.evaluate {} formula (.ofList assignments)).1 :=
    hunderstood.run_eq hbinds input
  rw [hrun, Bindings.ofList_eq_latest, Surroundings.conclude]
  cases (options.engine.evaluate {} formula (.latest assignments)).1.outcome with
  | ok value => exact ⟨rfl, rfl⟩
  | error error => exact ⟨rfl, rfl, _, rfl⟩

theorem run_dialogue_latest {statistics : Bool}
    (hunderstood : surroundings.Understands arguments options bindings (.repl · statistics))
    (input : List UInt8) :
    (surroundings.run arguments input).output =
      String.join ((heard (inputLines input)).map fun formula =>
        answerLine (options.engine.evaluate {} formula (.latest assignments)).1.outcome ++
          "\n") := by
  rw [hunderstood.run_eq hbinds, Surroundings.carryOut, Surroundings.output_concludeDialogue,
    Bindings.ofList_eq_latest, converse_eq_heard]
  exact printed_converse _ _ _

variable {bindings' arguments' : List String} {assignments' : List (String × Float)}
  (hbinds' : Binds bindings' assignments')
include hbinds'

theorem run_evaluation_indistinct {elsewhere : Surroundings} {formula : String}
    (hindistinct : Bindings.Indistinct (fun name => name ∈ options.engine.namesOf formula)
      assignments assignments')
    (hunderstood : surroundings.Understands arguments options bindings (.eval formula))
    (hunderstood' : elsewhere.Understands arguments' options bindings' (.eval formula))
    (input : List UInt8) :
    surroundings.Agree elsewhere (surroundings.run arguments input)
      (elsewhere.run arguments' input) := by
  have hagree : ∀ name ∈ options.engine.namesOf formula,
      Bindings.latest assignments name = Bindings.latest assignments' name := fun name hname =>
    hindistinct.latest_eq hname
  have hsame := Cache.follows_empty.evaluate_congr hagree
  rw [← Bindings.ofList_eq_latest, ← Bindings.ofList_eq_latest] at hsame
  have hcarry : elsewhere.carryOut ⟨options, .eval formula assignments⟩ input =
      elsewhere.carryOut ⟨options, .eval formula assignments'⟩ input := by
    simp only [Surroundings.carryOut, hsame]
  rw [hunderstood.run_eq hbinds, hunderstood'.run_eq hbinds', ← hcarry]
  exact Surroundings.agree_carryOut elsewhere _ input

theorem run_dialogue_indistinct {elsewhere : Surroundings} {statistics : Bool} {input : List UInt8}
    (hindistinct : Bindings.Indistinct
      (fun name => ∃ formula ∈ heard (inputLines input), name ∈ options.engine.namesOf formula)
      assignments assignments')
    (hunderstood : surroundings.Understands arguments options bindings (.repl · statistics))
    (hunderstood' : elsewhere.Understands arguments' options bindings' (.repl · statistics)) :
    surroundings.Agree elsewhere (surroundings.run arguments input)
      (elsewhere.run arguments' input) := by
  have hagree : ∀ formula ∈ heard (inputLines input), ∀ name ∈ options.engine.namesOf formula,
      Bindings.latest assignments name = Bindings.latest assignments' name :=
    fun formula hformula name hname => hindistinct.latest_eq ⟨formula, hformula, hname⟩
  have hsame := converse_congr Cache.follows_empty hagree
  rw [← Bindings.ofList_eq_latest, ← Bindings.ofList_eq_latest] at hsame
  have hcarry : elsewhere.carryOut ⟨options, .repl assignments statistics⟩ input =
      elsewhere.carryOut ⟨options, .repl assignments' statistics⟩ input := by
    simp only [Surroundings.carryOut, hsame]
  rw [hunderstood.run_eq hbinds, hunderstood'.run_eq hbinds', ← hcarry]
  exact Surroundings.agree_carryOut elsewhere _ input

end latest

/-- What the assignments of a command come to. A formula has the answer that a new engine has for it
when each name stands for the value of its last assignment, be it evaluated by itself or as a line
of a dialogue that is heard. -/
theorem run_latest {surroundings : Surroundings} {options : Options} {bindings : List String}
    {assignments : List (String × Float)} (hbinds : Binds bindings assignments) :
    let answer (formula : String) : Except Error Value :=
      (options.engine.evaluate {} formula (.latest assignments)).1.outcome
    (∀ formula arguments input,
      surroundings.Understands arguments options bindings (.eval formula) →
      let outcome := surroundings.run arguments input
      match answer formula with
      | .ok value => outcome.code = 0 ∧ outcome.output = value.text ++ "\n"
      | .error error => outcome.code = 1 ∧ outcome.output = "" ∧
          ∃ log, outcome.complaints =
            log ++ surroundings.report ("Failed to evaluate '" ++ formula ++ "'") error.message) ∧
    (∀ statistics arguments input,
      surroundings.Understands arguments options bindings (.repl · statistics) →
      (surroundings.run arguments input).output =
        String.join ((heard (inputLines input)).map fun formula =>
          answerLine (answer formula) ++ "\n")) ∧
    (∀ (elsewhere : Surroundings) bindings' assignments', Binds bindings' assignments' →
      (∀ formula arguments arguments' input,
        Bindings.Indistinct (fun name => name ∈ options.engine.namesOf formula)
          assignments assignments' →
        surroundings.Understands arguments options bindings (.eval formula) →
        elsewhere.Understands arguments' options bindings' (.eval formula) →
        surroundings.Agree elsewhere (surroundings.run arguments input)
          (elsewhere.run arguments' input)) ∧
      (∀ statistics arguments arguments' input,
        Bindings.Indistinct
          (fun name => ∃ formula ∈ heard (inputLines input), name ∈ options.engine.namesOf formula)
          assignments assignments' →
        surroundings.Understands arguments options bindings (.repl · statistics) →
        elsewhere.Understands arguments' options bindings' (.repl · statistics) →
        surroundings.Agree elsewhere (surroundings.run arguments input)
          (elsewhere.run arguments' input))) ∧
    (∀ formula name, name ∈ options.engine.namesOf formula →
      (∀ c ∈ name.toList, Alphabet.isOperand c = true) ∧
        name.toList.head?.any Alphabet.startsNumber = false) := by
  intro answer
  refine ⟨?_, ?_, ?_, ?_⟩
  · intro formula arguments input hunderstood
    exact run_evaluation_latest hbinds hunderstood input
  · intro statistics arguments input hunderstood
    exact run_dialogue_latest hbinds hunderstood input
  · intro elsewhere bindings' assignments' hbinds'
    constructor
    · intro formula arguments arguments' input hindistinct hunderstood hunderstood'
      exact run_evaluation_indistinct hbinds hbinds' hindistinct hunderstood hunderstood' input
    · intro statistics arguments arguments' input hindistinct hunderstood hunderstood'
      exact run_dialogue_indistinct hbinds hbinds' hindistinct hunderstood hunderstood'
  · intro formula name hname
    exact Engine.isName_of_mem_namesOf hname

/-- A name that is assigned twice, one that the formula does not mention and one that no formula
can mention. -/
theorem run_latest_shadowed :
    let outcome := standard.run ["eval", "-sx=1", "--set", "y=5", "-s=x=2", "x+1"] []
    let other := standard.run ["eval", "--set=x=2", "x+1", "-s2a=9"] []
    outcome.code = 0 ∧ outcome.output = "3\n" ∧ other.code = outcome.code ∧
      other.output = outcome.output ∧ other.complaints = outcome.complaints := by
  intro outcome other
  have hbinds : Binds ["x=1", "y=5", "x=2"] [("x", 1), ("y", 5), ("x", 2)] :=
    .cons (by decide +kernel) (.cons (by decide +kernel) (.cons (by decide +kernel) .nil))
  have hbinds' : Binds ["x=2", "2a=9"] [("x", 2), ("2a", 9)] :=
    .cons (by decide +kernel) (.cons (by decide +kernel) .nil)
  obtain ⟨hevaluated, -, hindistinct, hnames⟩ := @run_latest standard {} _ _ hbinds
  have hunderstood : standard.Understands ["eval", "-sx=1", "--set", "y=5", "-s=x=2", "x+1"] {}
      ["x=1", "y=5", "x=2"] (.eval "x+1") := standard_understands_eval rfl
  have hunderstood' : standard.Understands ["eval", "--set=x=2", "x+1", "-s2a=9"] {}
      ["x=2", "2a=9"] (.eval "x+1") := standard_understands_eval rfl
  have hsame : Bindings.Indistinct (fun name => name ∈ (Options.engine {}).namesOf "x+1")
      [("x", 1), ("y", 5), ("x", 2)] [("x", 2), ("2a", 9)] := by
    refine .trans (.shadowed [] (List.mem_cons_of_mem _ List.mem_cons_self) rfl) ?_
    refine .trans (.unused [] _ (by decide +kernel)) ?_
    refine .symm (.unused [("x", 2)] [] fun hname => ?_)
    exact absurd (hnames "x+1" "2a" hname).2 (by decide)
  have houtcome := hevaluated "x+1" _ [] hunderstood
  have hanswer : ((Options.engine {}).evaluate {} "x+1"
      (.latest [("x", 1), ("y", 5), ("x", 2)])).1.outcome = .ok (.number 3) := by decide +kernel
  beta_reduce at houtcome
  rw [hanswer] at houtcome
  have hagree := (hindistinct standard _ _ hbinds').1 "x+1" _ _ [] hsame hunderstood hunderstood'
  exact ⟨houtcome.1, houtcome.2.trans (by decide +kernel), hagree.code.symm, hagree.output.symm,
    (hagree.complaints rfl rfl).symm⟩

end CommandLine

end Formula
