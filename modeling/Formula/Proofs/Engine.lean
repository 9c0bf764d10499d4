import Formula.Engine
import Formula.Proofs.Cache
import Formula.Proofs.Outcome
import Formula.Proofs.Token

/-!
# What an engine answers

An engine takes off a pair of braces if it is set to, compiles what is left and runs the program.
The statements here say which text is compiled, what the cache has to do with it, and how the parts
of an answer follow each other.
-/

namespace Formula

/-! ## Braces -/

def braced (inner : String) : String := "\x7b" ++ inner ++ "\x7d"

theorem toList_braced (inner : String) :
    (braced inner).toList = '\x7b' :: (inner.toList ++ ['\x7d']) := by
  simp [braced]

theorem head?_braced (inner : String) : (braced inner).toList.head? = some '\x7b' := by
  rw [toList_braced, List.head?_cons]

theorem braced_ne_empty (inner : String) : braced inner ≠ "" := by
  intro hempty
  have hhead := head?_braced inner
  rw [hempty] at hhead
  cases hhead

theorem unwrapBraces_braced (inner : String) : unwrapBraces (braced inner) = inner := by
  unfold unwrapBraces
  rw [toList_braced]
  simp

theorem unwrapBraces_eq_self_or (text : String) :
    unwrapBraces text = text ∨ ∃ inner, text = braced inner := by
  unfold unwrapBraces
  split
  next rest hrest =>
    split
    next hlast =>
      obtain ⟨inner, rfl⟩ := List.getLast?_eq_some_iff.mp hlast
      refine .inr ⟨.ofList inner, ?_⟩
      rw [← String.toList_inj, hrest, toList_braced, String.toList_ofList]
    next => exact .inl rfl
  next => exact .inl rfl

theorem unwrapBraces_eq_self {text : String} (hhead : text.toList.head? ≠ some '\x7b') :
    unwrapBraces text = text := by
  rcases unwrapBraces_eq_self_or text with hself | ⟨inner, rfl⟩
  · exact hself
  · simp [toList_braced] at hhead

/-- A text that begins with a brace has no program. -/
theorem Program.ofText_eq_error_of_brace {text : String}
    (hhead : text.toList.head? = some '\x7b') :
    Program.ofText text = .error (.invalidCharacter "\x7b") := by
  have hstray : (Lexeme.stray '\x7b').WellFormed := ⟨by decide, by decide⟩
  have htokens : (Token.scan text).outcome = .error (.invalidCharacter "\x7b") :=
    Token.tokenize_eq_error_of_stray hhead hstray
  unfold Program.ofText Program.compile
  rw [Traced.outcome_bind, htokens]
  rfl

theorem Program.ofText_eq (text : String) :
    Program.ofText text = (Token.tokenize text).bind Program.ofTokens :=
  Traced.outcome_bind _ _

namespace Engine

variable (engine : Engine) (cache : Cache)

/-! ## The text that is compiled -/

theorem source_eq_self {text : String} (hhead : text.toList.head? ≠ some '\x7b') :
    engine.source text = text := by
  unfold source
  split
  · exact unwrapBraces_eq_self hhead
  · rfl

/-- A text that can be compiled as it is has no braces to take off. -/
theorem source_of_ofText {text : String} {program : Program}
    (hprogram : Program.ofText text = .ok program) : engine.source text = text := by
  apply engine.source_eq_self
  intro hbrace
  rw [Program.ofText_eq_error_of_brace hbrace] at hprogram
  cases hprogram

/-! ## Compilation -/

/-- The program of a text that an engine need not compile. -/
def stored? (text : String) : Option Program :=
  if engine.useCache then cache.find? text else none

theorem outcome_compile (text : String) :
    (engine.compile cache text).1.outcome =
      match engine.stored? cache text with
      | some program => .ok program
      | none => Program.ofText (engine.source text) := by
  unfold compile stored?
  split
  next hcache =>
    cases hfind : cache.find? text with
    | some program => rw [Cache.request_of_found hfind]
    | none =>
        dsimp only
        cases hmade : Program.ofText (engine.source text) with
        | ok program => rw [Cache.request_of_ok hfind hmade]
        | error error => rw [Cache.request_of_error hfind hmade]
  next => rfl

/-- An engine stores no more than the program that it has just compiled. -/
theorem mem_programs_compile (text : String) (entry : String × Program) :
    entry ∈ (engine.compile cache text).2.programs ↔
      entry ∈ cache.programs ∨ engine.useCache = true ∧ cache.find? text = none ∧
        entry.1 = text ∧ Program.ofText (engine.source text) = .ok entry.2 := by
  unfold compile
  split
  next hcache =>
    cases hfind : cache.find? text with
    | some program =>
        rw [Cache.request_of_found hfind]
        simp
    | none =>
        cases hmade : Program.ofText (engine.source text) with
        | ok program =>
            rw [Cache.request_of_ok hfind hmade, List.mem_cons, Prod.ext_iff]
            simp only [hcache, true_and, Except.ok.injEq, eq_comm (a := program)]
            exact or_comm
        | error error =>
            rw [Cache.request_of_error hfind hmade]
            simp
  next hcache => simp [hcache]

theorem contains_compile (text key : String) :
    (engine.compile cache text).2.contains key = true ↔
      cache.contains key = true ∨ engine.useCache = true ∧ key = text ∧
        ∃ program, Program.ofText (engine.source text) = .ok program := by
  simp only [Cache.contains_eq_true_iff, mem_programs_compile, exists_or]
  refine or_congr_right' fun habsent => ⟨?_, ?_⟩
  · rintro ⟨program, hcache, -, hkey, hprogram⟩
    exact ⟨hcache, hkey, program, hprogram⟩
  · rintro ⟨hcache, rfl, program, hprogram⟩
    refine ⟨program, hcache, ?_, rfl, hprogram⟩
    cases hfind : cache.find? key with
    | none => rfl
    | some stored => exact absurd ⟨stored, Cache.mem_of_find? hfind⟩ habsent

theorem outcome_compile_empty (text : String) :
    (engine.compile {} text).1.outcome = Program.ofText (engine.source text) := by
  rw [outcome_compile, show engine.stored? {} text = none from ite_self none]

theorem outcome_convert (text : String) :
    (convert text).outcome = (Program.ofText text).map Program.text := by
  unfold convert
  rw [Traced.outcome_bind]
  change (Program.ofText text).bind _ = _
  cases Program.ofText text <;> rfl

/-! ## Evaluation -/

/-- A text with characters is compiled and its program is run. -/
theorem outcome_evaluate {text : String} (hne : text ≠ "") (bindings : Bindings) :
    (engine.evaluate cache text bindings).1.outcome =
      (engine.compile cache text).1.outcome.bind fun program => program.run bindings := by
  unfold evaluate
  rw [if_neg (by simpa using hne)]
  exact Traced.outcome_bind _ _

/-- A new engine runs the program of a text that can be compiled as it is. -/
theorem outcome_evaluate_of_ofText {text : String} {program : Program}
    (hprogram : Program.ofText text = .ok program) (bindings : Bindings) :
    (engine.evaluate {} text bindings).1.outcome = program.run bindings := by
  by_cases hempty : text = ""
  · subst hempty
    obtain rfl := Except.ok.inj hprogram
    rfl
  · rw [engine.outcome_evaluate {} hempty, engine.outcome_compile_empty,
      engine.source_of_ofText hprogram, hprogram]
    rfl

/-- Engines that compile a text alike also evaluate it alike. -/
theorem outcome_evaluate_congr {engine other : Engine} {cache cache' : Cache} {text : String}
    (hcompile : (engine.compile cache text).1.outcome = (other.compile cache' text).1.outcome)
    (bindings : Bindings) :
    (engine.evaluate cache text bindings).1.outcome =
      (other.evaluate cache' text bindings).1.outcome := by
  by_cases hempty : text = ""
  · subst hempty
    rfl
  · rw [outcome_evaluate _ _ hempty, outcome_evaluate _ _ hempty, hcompile]

/-- A new engine that finds a number has compiled the text and run the program. -/
theorem exists_program_of_evaluate {text : String} {bindings : Bindings} {number : Float}
    (hnumber : (engine.evaluate {} text bindings).1.outcome = .ok (.number number)) :
    ∃ program, Program.ofText (engine.source text) = .ok program ∧
      program.run bindings = .ok (.number number) := by
  by_cases hempty : text = ""
  · subst hempty
    cases hnumber
  · rw [engine.outcome_evaluate {} hempty, engine.outcome_compile_empty] at hnumber
    exact Except.bind_eq_ok_iff.mp hnumber

end Engine

end Formula
