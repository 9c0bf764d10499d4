import Formula.Proofs.Arguments

/-!
# The standard surroundings can be relied on

The standard surroundings have all the properties that results about commands rely on. They read
the arguments of evaluations and dialogues as they were meant, however the options are spelled.
-/

namespace Formula.CommandLine

/-! ## Arguments -/

section understood

variable {arguments bindings : List String} {options : Options}

/-- Arguments that are read like the written out options of an evaluation. -/
theorem standard_understands_eval {formula : String}
    (hspelled : readArguments arguments = readArguments (evaluation options bindings formula)) :
    standard.Understands arguments options bindings (.eval formula) := by
  intro assignments hbinds
  change (readArguments arguments).mapError Halt.outcome = _
  rw [hspelled, readArguments_evaluation hbinds]
  rfl

/-- Arguments that are read like the written out options of a dialogue. -/
theorem standard_understands_repl {statistics : Bool}
    (hspelled : readArguments arguments = readArguments (dialogue options bindings statistics)) :
    standard.Understands arguments options bindings (.repl · statistics) := by
  intro assignments hbinds
  change (readArguments arguments).mapError Halt.outcome = _
  rw [hspelled, readArguments_dialogue hbinds]
  rfl

end understood

/-! ## Log and reports -/

theorem standard_discreet : standard.Discreet := by
  intro threshold events hevents
  have hnone : (events.filter fun event => threshold.admits event.level) = [] := by
    rw [List.filter_eq_nil_iff]
    intro event hevent
    rw [hevents event hevent]
    exact Bool.false_ne_true
  change logText threshold events = ""
  rw [logText, hnone]
  rfl

theorem standard_writesLines : standard.WritesLines := by
  intro threshold events
  change logText threshold events = "" ∨ ∃ text, logText threshold events = text ++ "\n"
  rw [logText]
  rcases List.eq_nil_or_concat (events.filter fun event => threshold.admits event.level) with
    hnone | ⟨earlier, event, hlast⟩
  · rw [hnone]
    exact .inl rfl
  · obtain ⟨body, hbody⟩ : ∃ body, logLine event = body ++ "\n" := ⟨_, rfl⟩
    refine .inr ⟨String.join (earlier.map logLine) ++ body, ?_⟩
    rw [hlast, List.concat_eq_append, List.map_append, List.map_singleton, hbody]
    simp [← String.toList_inj, String.toList_join]

/-- A text of one line has no margin. -/
theorem indented_eq_self {text : String} (hnewline : '\n' ∉ text.toList) (margin : String) :
    indented margin text = text := by
  have hsame : (text.toList.flatMap fun c => if c = '\n' then c :: margin.toList else [c]) =
      text.toList.flatMap fun c => [c] := by
    refine List.flatMap_congr fun c hc => if_neg ?_
    rintro rfl
    exact hnewline hc
  rw [indented, hsame, List.flatMap_singleton', String.ofList_toList]

theorem standard_reportsCauses : standard.ReportsCauses := by
  intro failure cause hnewline
  change reportText failure cause = _
  rw [reportText, indented_eq_self hnewline]

end Formula.CommandLine
