import Formula.CommandLine.Standard
import Formula.Proofs.Surroundings

/-!
# Options of evaluations and dialogues

An evaluation and a dialogue take the same options and bindings. Written out after the name of the
task, they are read back as they were meant. Two hyphens before a formula keep it from being taken
for an option, whatever it begins with.
-/

namespace Formula.CommandLine

namespace Gathered

/-- Arguments after the name of a task lead from what was gathered before them to what is gathered
after them, whatever arguments follow. -/
def Takes (verb : Verb) (before : Gathered) (texts : List String) (after : Gathered) : Prop :=
  ∀ rest, arguments verb before (texts ++ rest) = arguments verb after rest

variable {verb : Verb} {gathered later last : Gathered} {text : String}
  {texts others : List String}

theorem takes_nil : Takes verb gathered [] gathered := fun _ => rfl

theorem Takes.append (hfirst : Takes verb gathered texts later)
    (hsecond : Takes verb later others last) : Takes verb gathered (texts ++ others) last := by
  intro rest
  rw [List.append_assoc, hfirst, hsecond]

theorem takes_singleton (htext : text ≠ "--")
    (hargument : gathered.argument verb text = .ok later) :
    Takes verb gathered [text] later := by
  intro rest
  rw [List.singleton_append, arguments]
  · rw [hargument]
    rfl
  · exact htext

/-- An option that is written or not sets a part of what is gathered. -/
theorem takes_flag {change : Bool → Gathered} (htext : text ≠ "--")
    (hargument : (change false).argument verb text = .ok (change true)) (isSet : Bool) :
    Takes verb (change false) (if isSet then [text] else []) (change isSet) := by
  cases isSet with
  | true => exact takes_singleton htext hargument
  | false => exact takes_nil

theorem toList_assignment (binding : String) :
    ("--set=" ++ binding).toList = '-' :: '-' :: 's' :: 'e' :: 't' :: '=' :: binding.toList :=
  String.toList_append

theorem invocation_of_task {task : Task} (htask : gathered.task verb = .ok task) :
    invocation {} gathered verb =
      .ok ⟨⟨gathered.verbosity, gathered.noBraces, gathered.noCache⟩, task⟩ := by
  have hverbosity : (if gathered.verbosity = 0 then 0 else gathered.verbosity) =
      gathered.verbosity := ite_eq_right_iff.mpr Eq.symm
  rw [invocation, htask, hverbosity, Bool.false_or, Bool.false_or]
  rfl

/-! ## Options that can be repeated -/

variable (hpending : gathered.pending = .nothing)
include hpending

theorem argument_verbose (verb : Verb) :
    gathered.argument verb "-v" = .ok { gathered with verbosity := gathered.verbosity + 1 } := by
  cases gathered
  cases hpending
  rfl

theorem takes_verbose (verb : Verb) (count : Nat) :
    Takes verb gathered (List.replicate count "-v")
      { gathered with verbosity := gathered.verbosity + count } := by
  induction count generalizing gathered with
  | zero => exact takes_nil
  | succ count ih =>
      have hlater : Takes verb { gathered with verbosity := gathered.verbosity + 1 }
          (List.replicate count "-v")
          { gathered with verbosity := gathered.verbosity + 1 + count } := ih hpending
      rw [Nat.add_comm count 1, ← Nat.add_assoc, Nat.add_comm 1 count]
      exact (takes_singleton (by decide) (argument_verbose hpending verb)).append hlater

theorem argument_assign (hverb : verb.takesAssignments = true) (binding : String) :
    gathered.argument verb ("--set=" ++ binding) = gathered.assign binding := by
  let characters := 's' :: 'e' :: 't' :: '=' :: binding.toList
  have hname : Switch.ofWord? (some verb) (.ofList (characters.takeWhile (· ≠ '='))) =
      some .assign := by
    cases verb with
    | eval | repl => rfl
    | convert | tokens => cases hverb
  have hvalue : characters.dropWhile (· ≠ '=') = '=' :: binding.toList := rfl
  rw [argument, toList_assignment]
  change gathered.word (some verb) characters = _
  rw [word, hname]
  dsimp only
  rw [hvalue]
  dsimp only [attached]
  rw [settle, hpending, String.ofList_toList]
  rfl

theorem takes_bindings (hverb : verb.takesAssignments = true) {bindings : List String}
    {assignments : List (String × Float)} (hbinds : Binds bindings assignments) :
    Takes verb gathered (bindings.map fun binding => "--set=" ++ binding)
      { gathered with assignments := gathered.assignments ++ assignments } := by
  induction hbinds generalizing gathered with
  | nil =>
      rw [List.append_nil]
      exact takes_nil
  | @cons binding assignment bindings assignments hread _ ih =>
      have htext : "--set=" ++ binding ≠ "--" := by simp [← String.toList_inj]
      have hargument : gathered.argument verb ("--set=" ++ binding) =
          .ok { gathered with assignments := gathered.assignments ++ [assignment] } := by
        rw [argument_assign hpending hverb, assign, hread]
      have hlater : Takes verb
          { gathered with assignments := gathered.assignments ++ [assignment] }
          (bindings.map fun binding => "--set=" ++ binding)
          { gathered with assignments := gathered.assignments ++ [assignment] ++ assignments } :=
        ih hpending
      rw [List.append_cons]
      exact (takes_singleton htext hargument).append hlater

end Gathered

/-! ## Whole rows of options -/

/-- Options and bindings as they are written after the name of a task. -/
def Options.arguments (options : Options) (bindings : List String) : List String :=
  List.replicate options.verbosity "-v" ++
    ((if options.noBraces then ["--no-braces"] else []) ++
      ((if options.noCache then ["--no-cache"] else []) ++
        bindings.map fun binding => "--set=" ++ binding))

/-- The arguments of an evaluation. -/
def evaluation (options : Options) (bindings : List String) (formula : String) : List String :=
  "eval" :: (options.arguments bindings ++ ["--", formula])

/-- The arguments of a dialogue. -/
def dialogue (options : Options) (bindings : List String) (statistics : Bool) : List String :=
  "repl" :: ((if statistics then ["--stats"] else []) ++ options.arguments bindings)

variable {bindings : List String} {assignments : List (String × Float)}

/-- Options that are written out are gathered as they were meant. -/
theorem Options.takes_arguments {verb : Verb} (hverb : verb.takesAssignments = true)
    (hbinds : Binds bindings assignments) (options : Options) (statistics : Bool) :
    Gathered.Takes verb { statistics } (options.arguments bindings)
      { verbosity := options.verbosity
        noBraces := options.noBraces
        noCache := options.noCache
        statistics
        assignments } := by
  obtain ⟨verbosity, noBraces, noCache⟩ := options
  have hverbose : Gathered.Takes verb { statistics } (List.replicate verbosity "-v")
      { verbosity, statistics } := by
    simpa using Gathered.takes_verbose (@rfl _ (Gathered.pending { statistics })) verb verbosity
  have hbraces : Gathered.Takes verb { verbosity, statistics }
      (if noBraces then ["--no-braces"] else []) { verbosity, noBraces, statistics } :=
    @Gathered.takes_flag verb "--no-braces"
      (fun noBraces => { verbosity, noBraces, statistics }) (by decide) rfl noBraces
  have hcache : Gathered.Takes verb { verbosity, noBraces, statistics }
      (if noCache then ["--no-cache"] else []) { verbosity, noBraces, noCache, statistics } :=
    @Gathered.takes_flag verb "--no-cache"
      (fun noCache => { verbosity, noBraces, noCache, statistics }) (by decide) rfl noCache
  have hbindings : Gathered.Takes verb { verbosity, noBraces, noCache, statistics }
      (bindings.map fun binding => "--set=" ++ binding)
      { verbosity, noBraces, noCache, statistics, assignments } :=
    Gathered.takes_bindings rfl hverb hbinds
  exact hverbose.append (hbraces.append (hcache.append hbindings))

theorem readArguments_evaluation (hbinds : Binds bindings assignments) (options : Options)
    (formula : String) :
    readArguments (evaluation options bindings formula) =
      .ok ⟨options, .eval formula assignments⟩ := by
  have htakes := options.takes_arguments (@rfl _ Verb.eval.takesAssignments) hbinds false
  change (Gathered.arguments .eval {} (options.arguments bindings ++ _)).bind _ = _
  rw [htakes]
  exact Gathered.invocation_of_task rfl

theorem readArguments_dialogue (hbinds : Binds bindings assignments) (options : Options)
    (statistics : Bool) :
    readArguments (dialogue options bindings statistics) =
      .ok ⟨options, .repl assignments statistics⟩ := by
  have hstatistics : Gathered.Takes .repl {} (if statistics then ["--stats"] else [])
      { statistics } :=
    @Gathered.takes_flag .repl "--stats" (fun statistics => { statistics }) (by decide) rfl
      statistics
  have htakes := hstatistics.append
    (options.takes_arguments (@rfl _ Verb.repl.takesAssignments) hbinds statistics)
  change (Gathered.arguments .repl {} _).bind _ = _
  rw [← List.append_nil (_ ++ options.arguments bindings), htakes]
  exact Gathered.invocation_of_task rfl

end Formula.CommandLine
