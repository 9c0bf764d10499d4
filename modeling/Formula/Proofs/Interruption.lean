import Formula.Proofs.Commands

/-!
# Dialogues that break off

A line that is no text ends a dialogue. What comes before it has been answered by then, exactly as
if the input had ended there; neither that line nor anything after it is looked at. The dialogue
fails with a report of its own, and says nothing about the cache.
-/

namespace Formula.CommandLine

/-! ## Lines that are heard -/

/-- The formulas that a dialogue comes to: its lines up to the first one that cannot be read. -/
def heard : List (Option String) → List String
  | some formula :: rest => formula :: heard rest
  | _ => []

theorem heard_append_none (lines rest : List (Option String)) :
    heard (lines ++ none :: rest) = heard lines := by
  induction lines with
  | nil => rfl
  | cons line lines ih =>
      cases line with
      | none => rfl
      | some formula => simp [heard, ih]

theorem length_heard {lines : List (Option String)} (hlines : lines.all Option.isSome = true) :
    (heard lines).length = lines.length := by
  induction lines with
  | nil => rfl
  | cons line lines ih =>
      rw [List.all_cons, Bool.and_eq_true] at hlines
      obtain ⟨formula, rfl⟩ := Option.isSome_iff_exists.mp hlines.1
      simp [heard, ih hlines.2]

/-- A dialogue comes to the lines that are heard and to no others, and is complete if that are all
of its lines. -/
theorem converse_eq_heard (engine : Engine) (bindings : Bindings) (cache : Cache)
    (lines : List (Option String)) :
    converse engine bindings cache lines =
      { converse engine bindings cache ((heard lines).map some) with
        isComplete := lines.all Option.isSome } := by
  induction lines generalizing cache with
  | nil => rfl
  | cons line lines ih =>
      cases line with
      | none => rfl
      | some formula => simp [converse, heard, ih]

section converse

variable (engine : Engine) (bindings : Bindings)

/-- Behind a line that cannot be read, nothing happens any more. -/
theorem converse_append_none (cache : Cache) (lines rest : List (Option String)) :
    converse engine bindings cache (lines ++ none :: rest) =
      { converse engine bindings cache lines with isComplete := false } := by
  rw [converse_eq_heard, heard_append_none, converse_eq_heard _ _ _ lines]
  simp

variable {lines : List (Option String)} (hlines : lines.all Option.isSome = true)
include hlines

theorem isComplete_converse_of_all :
    (converse engine bindings {} lines).isComplete = true := by
  rw [converse_eq_heard]
  exact hlines

theorem count_newline_printed_of_all :
    (converse engine bindings {} lines).printed.toList.count '\n' = lines.length := by
  rw [converse_eq_heard, ← length_heard hlines]
  exact count_newline_printed engine bindings (heard lines)

end converse

/-! ## Lines that are no text -/

theorem all_isSome_decodeLine_iff {lines : List (List UInt8)} :
    (lines.map decodeLine).all Option.isSome = true ↔ ∀ line ∈ lines, IsText line := by
  simp [isText_iff]

section interrupted

variable {input : List UInt8} {earlier later : List (List UInt8)} {line : List UInt8}

theorem inputLines_of_splitOn (hsplit : input.splitOn lineFeed = earlier ++ line :: later)
    (hline : ¬ IsText line) :
    ∃ rest, inputLines input = earlier.map decodeLine ++ none :: rest := by
  have hne : line ≠ [] := by
    rintro rfl
    exact hline isText_nil
  obtain ⟨others, hothers⟩ := exists_ended_of_splitOn hsplit hne
  refine ⟨others.map decodeLine, ?_⟩
  simp [inputLines, byteLines_eq_ended, hothers, decodeLine_eq_none_iff.mpr hline]

/-- The lines before one of the lines of an input are read alike when they stand alone. -/
theorem inputLines_alone (hsplit : input.splitOn lineFeed = earlier ++ line :: later) :
    inputLines (earlier.flatMap fun before => before ++ [lineFeed]) = earlier.map decodeLine := by
  have hearlier : ∀ before ∈ earlier, lineFeed ∉ before := by
    intro before hbefore
    apply notMem_of_mem_splitOn input
    rw [hsplit]
    exact List.mem_append_left _ hbefore
  rw [inputLines, byteLines_eq_ended, ended_flatMap hearlier]

end interrupted

/-! ## Dialogues as commands -/

section run

variable {surroundings : Surroundings} {arguments bindings : List String} {options : Options}
  {assignments : List (String × Float)} {statistics : Bool}

/-- An input of which some line is no text ends a dialogue at the first such line, whatever its
options and surroundings are. The lines before it are answered as they are when they stand alone,
and leave the same in the cache and in the log; nothing else is answered, compiled or counted. The
code is 1, and after the log, which is empty unless it is asked for, the only complaint is the
report that the input could not be read. -/
theorem run_dialogue_interrupted
    (hunderstood : surroundings.Understands arguments options bindings (.repl · statistics))
    (hbinds : Binds bindings assignments) {input : List UInt8}
    (hinput : ∃ line ∈ input.splitOn lineFeed, ¬ IsText line) :
    ∃ earlier line later, input.splitOn lineFeed = earlier ++ line :: later ∧
      (∀ before ∈ earlier, IsText before) ∧ ¬ IsText line ∧
      let alone := earlier.flatMap fun before => before ++ [lineFeed]
      let transcript (input : List UInt8) : Transcript :=
        converse options.engine (.ofList assignments) {} (inputLines input)
      let outcome := surroundings.run arguments input
      let log := surroundings.log (.ofVerbosity options.verbosity) (transcript alone).events
      let report :=
        surroundings.report "Failed to read stdin" "stream did not contain valid UTF-8"
      transcript input = { transcript alone with isComplete := false } ∧
      outcome.code = 1 ∧
      (∀ (elsewhere : Surroundings) others,
        elsewhere.Understands others options bindings (.repl · statistics) →
        (elsewhere.run others alone).code = 0 ∧
          (elsewhere.run others alone).output = outcome.output) ∧
      outcome.output.toList.count '\n' = earlier.length ∧
      outcome.complaints = log ++ report ∧
      (options.verbosity = 0 → surroundings.Discreet → outcome.complaints = report) := by
  obtain ⟨earlier, line, later, hsplit, hearlier, hline⟩ := exists_first_not hinput
  refine ⟨earlier, line, later, hsplit, hearlier, hline, ?_⟩
  intro alone transcript outcome log report
  obtain ⟨rest, hlines⟩ := inputLines_of_splitOn hsplit hline
  have halone : inputLines alone = earlier.map decodeLine := inputLines_alone hsplit
  have hall : (earlier.map decodeLine).all Option.isSome = true :=
    all_isSome_decodeLine_iff.mpr hearlier
  have htranscript : transcript input = { transcript alone with isComplete := false } := by
    simp only [transcript]
    rw [hlines, halone, converse_append_none]
  have hcomplete : (transcript alone).isComplete = true := by
    simp only [transcript]
    rw [halone]
    exact isComplete_converse_of_all _ _ hall
  have hcount : (transcript alone).printed.toList.count '\n' = earlier.length := by
    simp only [transcript]
    rw [halone, count_newline_printed_of_all _ _ hall, List.length_map]
  have hbroken : outcome = ⟨1, (transcript alone).printed, log ++ report⟩ := by
    refine (hunderstood.run_eq hbinds input).trans ?_
    change surroundings.concludeDialogue _ statistics (transcript input) = _
    rw [htranscript]
    rfl
  rw [hbroken]
  refine ⟨htranscript, rfl, ?_, hcount, rfl, ?_⟩
  · intro elsewhere others hothers
    have hended : elsewhere.run others alone =
        elsewhere.concludeDialogue (.ofVerbosity options.verbosity) statistics
          (transcript alone) := hothers.run_eq hbinds alone
    rw [hended, Surroundings.concludeDialogue, if_pos hcomplete]
    exact ⟨rfl, rfl⟩
  · intro hquiet hdiscreet
    have hsilent : log = "" := by
      simp only [log, hquiet]
      exact hdiscreet.log_warnings _
    rw [hsilent, String.empty_append]

end run

/-- An input with a byte that is no text behind a good beginning of its third line. -/
theorem run_dialogue_interrupted_midline :
    let input := utf8 "x+1\r\n(2\n3" ++ 255 :: utf8 "\n4"
    let outcome := standard.run ["repl", "-sx=2", "--stats"] input
    outcome.code = 1 ∧ outcome.output = "3\nerror: Unmatched parenthesis: missing close `)`\n" ∧
      outcome.complaints =
        "Error: Failed to read stdin\n\nCaused by:\n    stream did not contain valid UTF-8\n" := by
  intro input outcome
  have hbinds : Binds ["x=2"] [("x", 2)] := .cons (by decide +kernel) .nil
  have hunderstood : standard.Understands ["repl", "-sx=2", "--stats"] {} ["x=2"] (.repl · true) :=
    standard_understands_repl rfl
  have hinput : ∃ line ∈ input.splitOn lineFeed, ¬ IsText line := by decide +kernel
  obtain ⟨_, _, _, _, _, _, _, hcode, _, _, _, hcomplaints⟩ :=
    run_dialogue_interrupted hunderstood hbinds hinput
  have houtput : outcome.output =
      "3\nerror: Unmatched parenthesis: missing close `)`\n" := by decide +kernel
  exact ⟨hcode, houtput, (hcomplaints rfl standard_discreet).trans (by decide +kernel)⟩

end Formula.CommandLine
