import Formula.Proofs.Lines
import Formula.Proofs.Message
import Formula.Proofs.Reordering
import Formula.Proofs.Standard

/-!
# Dialogues line by line

The cache is the only thing that a dialogue carries from one line to the next, and what it holds are
the programs that the lines have anyway. Each line is therefore answered as by a new engine, and a
dialogue without a cache has the same answers. An answer is one line, which begins like a message
only if it is one: so many lines are printed as have been read, and the errors are counted by
looking at them. The other counts of the statistics are those of the cache.
-/

namespace Formula

open Text (Inline)

/-- A cache that follows the programs of texts does not show in the value that an engine finds. -/
theorem Cache.Follows.outcome_evaluate {engine : Engine} {cache : Cache}
    (hfollows : cache.Follows (programOf engine.unwrapBraces)) (text : String)
    (bindings : Bindings) :
    (engine.evaluate cache text bindings).1.outcome =
      (engine.evaluate {} text bindings).1.outcome := by
  refine Engine.outcome_evaluate_congr ?_ bindings
  rw [hfollows.outcome_compile, Cache.follows_empty.outcome_compile]

theorem Cache.Follows.evaluate {engine : Engine} {cache : Cache}
    (hfollows : cache.Follows (programOf engine.unwrapBraces)) (text : String)
    (bindings : Bindings) :
    (engine.evaluate cache text bindings).2.Follows (programOf engine.unwrapBraces) :=
  @Follows.after (engine, .evaluate text bindings) cache hfollows

/-- New engines that treat braces alike answer alike, whether or not they use a cache. -/
theorem Engine.outcome_evaluate_useCache {engine other : Engine}
    (hbraces : engine.unwrapBraces = other.unwrapBraces) (text : String) (bindings : Bindings) :
    (engine.evaluate {} text bindings).1.outcome =
      (other.evaluate {} text bindings).1.outcome := by
  refine outcome_evaluate_congr ?_ bindings
  rw [outcome_compile_empty, outcome_compile_empty, source, source, hbraces]

namespace CommandLine

/-! ## Answers -/

/-- An answer begins like a message only if it is one. -/
theorem prefix_answerLine_iff (outcome : Except Error Value) :
    "error: ".toList <+: (answerLine outcome).toList ↔ outcome.isOk = false := by
  cases outcome with
  | ok value =>
      refine iff_of_false (fun hbegins => ?_) Bool.noConfusion
      exact value.colon_notMem (hbegins.subset (by decide))
  | error error =>
      refine iff_of_true ?_ rfl
      rw [answerLine, String.toList_append]
      exact List.prefix_append _ _

theorem inline_answerLine (engine : Engine) (formula : String) (bindings : Bindings) :
    Inline (answerLine (engine.evaluate {} formula bindings).1.outcome) := by
  cases houtcome : (engine.evaluate {} formula bindings).1.outcome with
  | ok value => exact value.inline_text
  | error error =>
      exact Inline.append (by decide) (Engine.inline_message_of_evaluate Cache.sound_empty houtcome)

/-! ## Dialogues -/

section converse

variable (engine : Engine) (bindings : Bindings) (formulas : List String) {cache : Cache}

theorem isComplete_converse :
    (converse engine bindings cache (formulas.map some)).isComplete = true := by
  induction formulas generalizing cache with
  | nil => rfl
  | cons formula rest ih => exact ih

/-- Every line is answered as by a new engine. -/
theorem answers_converse (hfollows : cache.Follows (programOf engine.unwrapBraces)) :
    (converse engine bindings cache (formulas.map some)).answers =
      formulas.map fun formula => answerLine (engine.evaluate {} formula bindings).1.outcome := by
  induction formulas generalizing cache with
  | nil => rfl
  | cons formula rest ih =>
      rw [List.map_cons, List.map_cons, ← ih (hfollows.evaluate formula bindings),
        ← hfollows.outcome_evaluate]
      rfl

theorem errors_converse (hfollows : cache.Follows (programOf engine.unwrapBraces)) :
    (converse engine bindings cache (formulas.map some)).errors =
      formulas.countP fun formula =>
        !(engine.evaluate {} formula bindings).1.outcome.isOk := by
  induction formulas generalizing cache with
  | nil => rfl
  | cons formula rest ih =>
      rw [List.countP_cons, ← ih (hfollows.evaluate formula bindings),
        ← hfollows.outcome_evaluate, Nat.add_comm]
      change errorCount (engine.evaluate cache formula bindings).1.outcome + _ = _
      cases (engine.evaluate cache formula bindings).1.outcome <;> rfl

/-! ## The cache of a dialogue -/

theorem cache_converse_of_unused (hunused : engine.useCache = false) :
    (converse engine bindings cache (formulas.map some)).cache = cache := by
  induction formulas generalizing cache with
  | nil => rfl
  | cons formula rest ih =>
      have hfirst : (engine.evaluate cache formula bindings).2 = cache := by
        unfold Engine.evaluate Engine.compile
        simp [hunused, apply_ite Prod.snd]
      exact ih.trans hfirst

/-- What the cache is asked for in a dialogue. -/
def requests : List Cache.Request :=
  (formulas.map fun formula => (engine, Call.evaluate formula bindings)).filterMap Call.request?

theorem cache_converse :
    (converse engine bindings cache (formulas.map some)).cache =
      cache.afterRequests (requests engine bindings formulas) := by
  rw [requests, ← Cache.afterAll_eq]
  induction formulas generalizing cache with
  | nil => rfl
  | cons formula rest ih => exact ih

theorem makes_of_mem_requests :
    ∀ asked ∈ requests engine bindings formulas, asked.Makes (programOf engine.unwrapBraces) := by
  intro asked hasked
  obtain ⟨entry, hentry, hrequest⟩ := List.mem_filterMap.mp hasked
  obtain ⟨formula, _, rfl⟩ := List.mem_map.mp hentry
  have hmakes := Call.makes_of_request? hrequest
  exact hmakes

/-- The keys of a dialogue are the lines that are not empty. -/
theorem map_key_requests (huse : engine.useCache = true) :
    (requests engine bindings formulas).map Cache.Request.key = formulas.filter (· ≠ "") := by
  rw [requests, List.filterMap_map, List.map_filterMap, ← List.filterMap_eq_filter]
  refine congrArg (fun key? => formulas.filterMap key?) (funext fun formula => ?_)
  by_cases hempty : formula = "" <;>
    simp [Call.request?, Operation.request?, Call.text?, Option.guard, huse, hempty]

theorem compilations_add_hits_converse (huse : engine.useCache = true) :
    (converse engine bindings {} (formulas.map some)).cache.compilations +
      (converse engine bindings {} (formulas.map some)).cache.hits =
        (formulas.filter (· ≠ "")).length := by
  rw [cache_converse, Nat.add_comm, Cache.hits_add_compilations_afterRequests,
    ← map_key_requests engine bindings formulas huse, List.length_map]

theorem size_converse (huse : engine.useCache = true) :
    (converse engine bindings {} (formulas.map some)).cache.size =
      (formulas.filter fun formula =>
        formula ≠ "" ∧ (engine.compile {} formula).1.outcome.isOk).dedup.length := by
  rw [cache_converse, Cache.size_afterRequests (makes_of_mem_requests engine bindings formulas),
    Cache.compilable, map_key_requests engine bindings formulas huse, List.filter_filter]
  simp [Cache.follows_empty.outcome_compile, Bool.and_comm]

/-- The counts that a dialogue leaves in the cache. -/
theorem counts_converse :
    let cache := (converse engine bindings {} (formulas.map some)).cache
    if engine.useCache then
      cache.compilations + cache.hits = (formulas.filter (· ≠ "")).length ∧
        cache.size = (formulas.filter fun formula =>
          formula ≠ "" ∧ (engine.compile {} formula).1.outcome.isOk).dedup.length
    else cache.size = 0 ∧ cache.compilations = 0 ∧ cache.hits = 0 := by
  intro cache
  split
  next huse => exact ⟨compilations_add_hits_converse _ _ _ huse, size_converse _ _ _ huse⟩
  next hunused =>
    have hcache : cache = {} :=
      cache_converse_of_unused _ _ _ (Bool.eq_false_iff.mpr hunused)
    rw [hcache]
    exact ⟨rfl, rfl, rfl⟩

end converse

/-! ## What is printed -/

theorem toList_printed (transcript : Transcript) :
    transcript.printed.toList =
      (transcript.answers.map String.toList).flatMap fun answer => answer ++ ['\n'] := by
  rw [Transcript.printed, String.toList_join, List.flatMap_map, List.flatMap_map]
  simp

/-- The line of statistics, without its end. -/
def statisticsLine (entries compilations hits errors : Nat) : String :=
  entries.repr ++ " cached formulas, " ++ compilations.repr ++ " compilations, " ++ hits.repr ++
    " cache hits, " ++ errors.repr ++ " errors"

theorem statistics_eq (transcript : Transcript) :
    transcript.statistics = statisticsLine transcript.cache.size transcript.cache.compilations
      transcript.cache.hits transcript.errors ++ "\n" := by
  unfold statisticsLine
  rw [Transcript.statistics, @String.append_assoc _ " errors"]
  rfl

theorem inline_statisticsLine (entries compilations hits errors : Nat) :
    Inline (statisticsLine entries compilations hits errors) := by
  simp only [statisticsLine, Text.inline_append_iff, Text.inline_repr, true_and]
  decide

/-- The formulas of an input: its lines, without the carriage returns at their ends. -/
def formulasOf (input : String) : List String :=
  (textLines input.toList).map fun line => .ofList (Text.dropEndWhile (· = '\r') line)

theorem inputLines_eq_formulasOf (input : String) :
    inputLines (utf8 input) = (formulasOf input).map some := by
  rw [inputLines_utf8, formulasOf, List.map_map]
  rfl

/-- The statistics are the last line of the complaints, whatever has been logged before. -/
theorem getLast?_textLines_statistics {log : String} (hlog : log = "" ∨ ∃ text, log = text ++ "\n")
    (transcript : Transcript) :
    (textLines (log ++ transcript.statistics).toList).getLast? =
      some (statisticsLine transcript.cache.size transcript.cache.compilations
        transcript.cache.hits transcript.errors).toList := by
  have hlines : log.toList = [] ∨ ∃ earlier, log.toList = earlier ++ ['\n'] := by
    rcases hlog with rfl | ⟨text, rfl⟩
    · exact .inl rfl
    · exact .inr ⟨text.toList, String.toList_append⟩
  rw [statistics_eq, ← String.append_assoc, String.toList_append, String.toList_append]
  exact getLast?_textLines hlines (inline_statisticsLine _ _ _ _).newline_notMem

section printed

variable (engine : Engine) (bindings : Bindings) (formulas : List String)

theorem printed_converse :
    (converse engine bindings {} (formulas.map some)).printed =
      String.join (formulas.map fun formula =>
        answerLine (engine.evaluate {} formula bindings).1.outcome ++ "\n") := by
  rw [Transcript.printed, answers_converse _ _ _ Cache.follows_empty, List.map_map]
  rfl

/-- The use of the cache does not show in what is printed. -/
theorem printed_converse_congr {engine other : Engine}
    (hbraces : engine.unwrapBraces = other.unwrapBraces) :
    (converse engine bindings {} (formulas.map some)).printed =
      (converse other bindings {} (formulas.map some)).printed := by
  rw [printed_converse, printed_converse]
  refine congrArg String.join (List.map_congr_left fun formula _ => ?_)
  rw [Engine.outcome_evaluate_useCache hbraces]

theorem newline_notMem_of_mem_answers :
    ∀ line ∈ (converse engine bindings {} (formulas.map some)).answers.map String.toList,
      '\n' ∉ line := by
  rw [answers_converse _ _ _ Cache.follows_empty, List.map_map]
  intro line hline
  obtain ⟨formula, _, rfl⟩ := List.mem_map.mp hline
  exact (inline_answerLine engine formula bindings).newline_notMem

theorem count_newline_printed :
    (converse engine bindings {} (formulas.map some)).printed.toList.count '\n' =
      formulas.length := by
  rw [toList_printed,
    count_newline_flatMap (newline_notMem_of_mem_answers engine bindings formulas),
    answers_converse _ _ _ Cache.follows_empty, List.length_map, List.length_map]

/-- The errors of a dialogue can be counted in what it prints. -/
theorem errors_eq_countP :
    (converse engine bindings {} (formulas.map some)).errors =
      (textLines (converse engine bindings {} (formulas.map some)).printed.toList).countP
        fun line => "error: ".toList <+: line := by
  rw [toList_printed, textLines_flatMap (newline_notMem_of_mem_answers engine bindings formulas),
    errors_converse _ _ _ Cache.follows_empty, answers_converse _ _ _ Cache.follows_empty,
    List.countP_map, List.countP_map]
  refine List.countP_congr fun formula _ => ?_
  rw [Bool.not_eq_true', ← prefix_answerLine_iff]
  exact decide_eq_true_iff.symm

end printed

/-! ## Dialogues as commands -/

section run

variable {surroundings : Surroundings} {arguments bindings : List String} {options : Options}
  {assignments : List (String × Float)} {statistics : Bool}

/-- A dialogue about a text can read all of its lines. -/
theorem run_utf8
    (hunderstood : surroundings.Understands arguments options bindings (.repl · statistics))
    (hbinds : Binds bindings assignments) (input : String) :
    let transcript :=
      converse options.engine (.ofList assignments) {} ((formulasOf input).map some)
    surroundings.run arguments (utf8 input) =
      ⟨0, transcript.printed,
        surroundings.log (.ofVerbosity options.verbosity) transcript.events ++
          if statistics then transcript.statistics else ""⟩ := by
  intro transcript
  have hcomplete : transcript.isComplete = true := isComplete_converse _ _ _
  rw [hunderstood.run_eq hbinds]
  change surroundings.concludeDialogue _ statistics (converse _ _ {} (inputLines (utf8 input))) = _
  rw [inputLines_eq_formulasOf, Surroundings.concludeDialogue, if_pos hcomplete]

/-- Whatever text a dialogue is about and whatever its options and surroundings are, it ends well
and prints one line for each line of the text: the value or the message of the error that a new
engine has for it. Without the cache the same is printed. The statistics, which are the last line of
the complaints if the log before them consists of whole lines, say how many of the printed lines are
errors. With the cache, compilations and hits are as many as the lines that are not empty, and the
entries as many as the different ones among these that have a program; without it, all three are
zero. -/
theorem run_dialogue_linewise
    (hunderstood : surroundings.Understands arguments options bindings (.repl · statistics))
    (hbinds : Binds bindings assignments) (input : String) :
    let asked := formulasOf input
    let answer (formula : String) : Except Error Value :=
      (options.engine.evaluate {} formula (.ofList assignments)).1.outcome
    let outcome := surroundings.run arguments (utf8 input)
    outcome.code = 0 ∧
      outcome.output = String.join (asked.map fun formula => answerLine (answer formula) ++ "\n") ∧
      outcome.output.toList.count '\n' = (textLines input.toList).length ∧
      (∀ (elsewhere : Surroundings) others,
        elsewhere.Understands others { options with noCache := true } bindings
          (.repl · statistics) →
        (elsewhere.run others (utf8 input)).output = outcome.output) ∧
      (statistics = true → surroundings.WritesLines → ∃ entries compilations hits,
        (textLines outcome.complaints.toList).getLast? =
          some (statisticsLine entries compilations hits
            ((textLines outcome.output.toList).countP fun line =>
              "error: ".toList <+: line)).toList ∧
        if options.noCache then entries = 0 ∧ compilations = 0 ∧ hits = 0
        else
          compilations + hits = (asked.filter (· ≠ "")).length ∧
            entries = (asked.filter fun formula =>
              formula ≠ "" ∧ (options.engine.compile {} formula).1.outcome.isOk).dedup.length) := by
  intro asked answer outcome
  let transcript := converse options.engine (.ofList assignments) {} (asked.map some)
  have houtcome : outcome = ⟨0, transcript.printed, _⟩ := run_utf8 hunderstood hbinds input
  rw [houtcome]
  refine ⟨rfl, printed_converse _ _ _, ?_, ?_, ?_⟩ <;> dsimp only
  · exact (count_newline_printed _ _ asked).trans (List.length_map _)
  · intro elsewhere others hothers
    rw [run_utf8 hothers hbinds input]
    exact printed_converse_congr (.ofList assignments) asked rfl
  · rintro rfl hlines
    refine ⟨transcript.cache.size, transcript.cache.compilations, transcript.cache.hits, ?_, ?_⟩
    · rw [← errors_eq_countP]
      exact getLast?_textLines_statistics (hlines _ _) transcript
    · have hcounts := counts_converse options.engine (.ofList assignments) asked
      rw [show options.engine.useCache = !options.noCache from rfl] at hcounts
      cases hused : options.noCache <;> simpa [hused] using hcounts

end run

/-- Lines that repeat each other, fail or are empty, with the binding written in another way. -/
theorem run_dialogue_linewise_repeated :
    let outcome := standard.run ["repl", "-sx=2", "--stats"] (utf8 "x+1\r\n(2\n\nx+1")
    outcome.output = "3\nerror: Unmatched parenthesis: missing close `)`\n\n3\n" ∧
      ∃ entries compilations hits,
        (textLines outcome.complaints.toList).getLast? =
          some (statisticsLine entries compilations hits 1).toList ∧
        compilations + hits = 3 ∧ entries = 1 := by
  intro outcome
  have hbinds : Binds ["x=2"] [("x", 2)] := .cons (by decide +kernel) .nil
  have hunderstood : standard.Understands ["repl", "-sx=2", "--stats"] {} ["x=2"] (.repl · true) :=
    standard_understands_repl rfl
  obtain ⟨_, houtput, _, _, hstatistics⟩ :=
    run_dialogue_linewise hunderstood hbinds "x+1\r\n(2\n\nx+1"
  have hprinted : outcome.output =
      "3\nerror: Unmatched parenthesis: missing close `)`\n\n3\n" :=
    houtput.trans (by decide +kernel)
  obtain ⟨entries, compilations, hits, hlast, hsum, hentries⟩ :=
    hstatistics rfl standard_writesLines
  have herrors : ((textLines outcome.output.toList).countP fun line =>
      "error: ".toList <+: line) = 1 := by
    rw [hprinted]
    decide
  rw [herrors] at hlast
  exact ⟨hprinted, entries, compilations, hits, hlast, hsum.trans (by decide),
    hentries.trans (by decide +kernel)⟩

end CommandLine

end Formula
