import Formula.Proofs.Dialogue
import Formula.Proofs.Trimming

/-!
# Evaluations and dialogues

One formula can be evaluated on its own or as the only line of a dialogue. The two tell the same:
what one prints the other prints as well, and the cause that the report of a failed evaluation ends
with is the message that the dialogue has in place of a value.
-/

namespace Formula

namespace CommandLine

theorem formulasOf_newline {formula : String} (hnewline : '\n' ∉ formula.toList)
    (hreturn : formula.toList.getLast? ≠ some '\r') : formulasOf (formula ++ "\n") = [formula] := by
  have hlines : textLines (formula ++ "\n").toList = [formula.toList] := by
    rw [String.toList_append]
    exact textLines_append_newline hnewline []
  have hkept : Text.dropEndWhile (· = '\r') formula.toList = formula.toList := by
    refine Text.dropEndWhile_eq_self fun c hc => decide_eq_false ?_
    rintro rfl
    exact hreturn hc
  rw [formulasOf, hlines, List.map_singleton, hkept, String.ofList_toList]

theorem printed_singleton (engine : Engine) (bindings : Bindings) (formula : String) :
    (converse engine bindings {} [some formula]).printed =
      answerLine (engine.evaluate {} formula bindings).1.outcome ++ "\n" := by
  simp [Transcript.printed, converse]

/-- A formula of one line, evaluated on its own and as the only line of a dialogue, in surroundings
that keep no log unless asked to. If the engine has a value, both print it and nothing else happens.
If not, the evaluation fails and prints nothing, and its report gives as the cause the message that
the dialogue prints; the dialogue ends well. -/
theorem evaluation_agrees_dialogue {surroundings elsewhere : Surroundings}
    (hreports : surroundings.ReportsCauses) (hdiscreet : surroundings.Discreet)
    {options : Options} (hquiet : options.verbosity = 0) {bindings : List String}
    {assignments : List (String × Float)} (hbinds : Binds bindings assignments)
    {formula : String} (hnewline : '\n' ∉ formula.toList)
    (hreturn : formula.toList.getLast? ≠ some '\r') {arguments others : List String}
    {statistics : Bool}
    (hunderstood : surroundings.Understands arguments options bindings (.eval formula))
    (hothers : elsewhere.Understands others options bindings (.repl · statistics))
    (input : List UInt8) :
    let evaluated := surroundings.run arguments input
    let conversed := elsewhere.run others (utf8 (formula ++ "\n"))
    conversed.code = 0 ∧
      match (options.engine.evaluate {} formula (.ofList assignments)).1.outcome with
      | .ok value =>
          evaluated = ⟨0, value.text ++ "\n", ""⟩ ∧ conversed.output = value.text ++ "\n"
      | .error error =>
          '\n' ∉ error.message.toList ∧
          evaluated = ⟨1, "", "Error: Failed to evaluate '" ++ formula ++
            "'\n\nCaused by:\n    " ++ error.message ++ "\n"⟩ ∧
          conversed.output = "error: " ++ error.message ++ "\n" := by
  intro evaluated conversed
  have hevaluated : evaluated =
      surroundings.conclude .warnings "evaluate" formula (fun value => value.text ++ "\n")
        (options.engine.evaluate {} formula (.ofList assignments)).1 := by
    have hrun := hunderstood.run_eq hbinds input
    rw [Surroundings.carryOut, hquiet] at hrun
    exact hrun
  have hconversed : conversed = ⟨0, _, _⟩ := run_utf8 hothers hbinds (formula ++ "\n")
  rw [hevaluated, hconversed]
  refine ⟨rfl, ?_⟩
  dsimp only
  rw [formulasOf_newline hnewline hreturn, List.map_singleton, printed_singleton,
    Surroundings.conclude, hdiscreet.log_warnings]
  cases houtcome : (options.engine.evaluate {} formula (.ofList assignments)).1.outcome with
  | ok value => exact ⟨rfl, rfl⟩
  | error error =>
      have hinline := Engine.inline_message_of_evaluate Cache.sound_empty houtcome
      refine ⟨hinline.newline_notMem, ?_, rfl⟩
      dsimp only
      rw [String.empty_append, hreports _ _ hinline.newline_notMem]
      simp [← String.toList_inj]

/-- A formula that begins like an option and has no value, under options that are written in
different ways for the two commands. -/
theorem evaluation_agrees_dialogue_hyphen :
    let message := "Internal error: stack underflow at operator '-' in `x -`"
    standard.run ["--no-braces", "eval", "-sx=2", "--", "-x"] [] =
        ⟨1, "", "Error: Failed to evaluate '-x'\n\nCaused by:\n    " ++ message ++ "\n"⟩ ∧
      (standard.run ["repl", "--set=x=2", "--no-braces"] (utf8 ("-x" ++ "\n"))).output =
        "error: " ++ message ++ "\n" := by
  intro message
  let options : Options := { noBraces := true }
  have hbinds : Binds ["x=2"] [("x", 2)] := .cons (by decide +kernel) .nil
  have hunderstood : standard.Understands ["--no-braces", "eval", "-sx=2", "--", "-x"] options
      ["x=2"] (.eval "-x") := standard_understands_eval rfl
  have hothers : standard.Understands ["repl", "--set=x=2", "--no-braces"] options
      ["x=2"] (.repl · false) := standard_understands_repl rfl
  obtain ⟨_, hagree⟩ :=
    evaluation_agrees_dialogue standard_reportsCauses standard_discreet rfl hbinds (by decide)
      (by decide) hunderstood hothers []
  have herror : (options.engine.evaluate {} "-x" (.ofList [("x", 2)])).1.outcome =
      .error (.internal "stack underflow at operator '-' in `x -`") := by decide +kernel
  rw [herror] at hagree
  exact hagree.2

end CommandLine

end Formula
