import Formula.Proofs.Engine
import Formula.Proofs.Machine

/-!
# Engines that share a cache

Any number of engines, each with its own settings, may work with one cache, which is empty at first.
A program is stored under the text as it was given, while the part of the text that was compiled
depends on the settings. The invariant of such runs is that a stored program is always that of the
text without its braces: an engine that leaves braces alone cannot compile a text that begins with
one. An engine that takes braces off therefore answers as if there were no cache. An engine that
leaves them alone does not, and the runs that change its answers are determined exactly.
-/

namespace Formula

/-! ## Calls and runs -/

/-- What can be asked of an engine and of the cache that it works with. -/
inductive Call where
  | evaluate (text : String) (bindings : Bindings)
  | compile (text : String)
  | convert (text : String)
  | find (key : String)
  | contains (key : String)
  | counts

namespace Call

/-- The cache after a call. Only evaluations and compilations have it in their hands. -/
def after (engine : Engine) (cache : Cache) : Call → Cache
  | evaluate text bindings => (engine.evaluate cache text bindings).2
  | compile text => (engine.compile cache text).2
  | convert _ | find _ | contains _ | counts => cache

/-- The text whose program a call needs. -/
def text? : Call → Option String
  | evaluate text _ => if text = "" then none else some text
  | compile text => some text
  | convert _ | find _ | contains _ | counts => none

/-- A call does to the cache what the compilation of its text does. -/
theorem after_eq (engine : Engine) (cache : Cache) (call : Call) :
    call.after engine cache =
      match call.text? with
      | some text => (engine.compile cache text).2
      | none => cache := by
  cases call with
  | evaluate text bindings =>
      by_cases hempty : text = ""
      · subst hempty
        rfl
      · rw [text?, if_neg hempty, after, Engine.evaluate, if_neg (by simpa using hempty)]
  | _ => rfl

end Call

namespace Cache

/-- The cache after some calls, each made of an engine that shares it. -/
def afterAll (cache : Cache) (calls : List (Engine × Call)) : Cache :=
  calls.foldl (fun cache entry => entry.2.after entry.1 cache) cache

/-- Every stored program is that of its key without braces. -/
def Sound (cache : Cache) : Prop :=
  ∀ entry ∈ cache.programs, Program.ofText (unwrapBraces entry.1) = .ok entry.2

end Cache

/-! ## The invariant -/

/-- What an engine has compiled is what it would have compiled if it took braces off. -/
theorem Engine.ofText_unwrapBraces {engine : Engine} {text : String} {program : Program}
    (hprogram : Program.ofText (engine.source text) = .ok program) :
    Program.ofText (Formula.unwrapBraces text) = .ok program := by
  unfold source at hprogram
  split at hprogram
  next => exact hprogram
  next =>
    -- The text was compiled as it is, so that it cannot begin with a brace.
    have hhead : text.toList.head? ≠ some '\x7b' := by
      intro hbrace
      rw [Program.ofText_eq_error_of_brace hbrace] at hprogram
      cases hprogram
    rw [unwrapBraces_eq_self hhead]
    exact hprogram

namespace Cache

theorem Sound.compile {cache : Cache} (hsound : cache.Sound) (engine : Engine) (text : String) :
    (engine.compile cache text).2.Sound := by
  intro entry hentry
  rcases (engine.mem_programs_compile cache text entry).mp hentry with hold | hnew
  · exact hsound entry hold
  · obtain ⟨_, _, hkey, hprogram⟩ := hnew
    rw [hkey]
    exact Engine.ofText_unwrapBraces hprogram

theorem Sound.after {cache : Cache} (hsound : cache.Sound) (engine : Engine) (call : Call) :
    (call.after engine cache).Sound := by
  rw [Call.after_eq]
  split
  · exact hsound.compile engine _
  · exact hsound

theorem Sound.afterAll {cache : Cache} (hsound : cache.Sound) (calls : List (Engine × Call)) :
    (cache.afterAll calls).Sound := by
  induction calls generalizing cache with
  | nil => exact hsound
  | cons entry rest ih => exact ih (hsound.after entry.1 entry.2)

theorem sound_empty : Sound {} := by
  intro entry hentry
  cases hentry

theorem Sound.eq_of_stored? {cache : Cache} (hsound : cache.Sound) {engine : Engine}
    {text : String} {program : Program} (hstored : engine.stored? cache text = some program) :
    Program.ofText (unwrapBraces text) = .ok program := by
  unfold Engine.stored? at hstored
  split at hstored
  · exact hsound (text, program) (mem_of_find? hstored)
  · cases hstored

/-- A key is stored exactly if an engine with the cache in use has compiled it, at any time. -/
theorem contains_afterAll_iff (cache : Cache) (calls : List (Engine × Call)) (key : String) :
    (cache.afterAll calls).contains key = true ↔ cache.contains key = true ∨
      ∃ entry ∈ calls, entry.1.useCache = true ∧ entry.2.text? = some key ∧
        ∃ program, Program.ofText (entry.1.source key) = .ok program := by
  induction calls generalizing cache with
  | nil => simp [afterAll]
  | cons entry rest ih =>
      have hstep : (entry.2.after entry.1 cache).contains key = true ↔
          cache.contains key = true ∨ entry.1.useCache = true ∧ entry.2.text? = some key ∧
            ∃ program, Program.ofText (entry.1.source key) = .ok program := by
        rw [Call.after_eq]
        cases entry.2.text? with
        | none => simp
        | some text =>
            rw [Engine.contains_compile, Option.some_inj, eq_comm (a := key)]
            exact or_congr_right
              (and_congr_right fun _ => and_congr_right fun heq => heq ▸ Iff.rfl)
      change ((entry.2.after entry.1 cache).afterAll rest).contains key = true ↔ _
      rw [ih, hstep, List.exists_mem_cons_iff, or_assoc]

end Cache

/-! ## Engines that take braces off -/

/-- Whatever has been done with a cache, its programs are those of their keys without braces, and an
engine that takes braces off answers like a new one that does not use a cache. -/
theorem Cache.afterAll_transparent (calls : List (Engine × Call)) (useCache : Bool) :
    (Cache.afterAll {} calls).Sound ∧ ∀ text,
      (Engine.compile ⟨true, useCache⟩ (Cache.afterAll {} calls) text).1.outcome =
        (Engine.compile ⟨true, false⟩ {} text).1.outcome ∧
      ∀ bindings,
        (Engine.evaluate ⟨true, useCache⟩ (Cache.afterAll {} calls) text bindings).1.outcome =
          (Engine.evaluate ⟨true, false⟩ {} text bindings).1.outcome := by
  have hsound : (Cache.afterAll {} calls).Sound := Cache.sound_empty.afterAll calls
  refine ⟨hsound, fun text => ?_⟩
  have hcompile : (Engine.compile ⟨true, useCache⟩ (Cache.afterAll {} calls) text).1.outcome =
      (Engine.compile ⟨true, false⟩ {} text).1.outcome := by
    rw [Engine.outcome_compile, Engine.outcome_compile_empty]
    split
    next program hstored => exact (hsound.eq_of_stored? hstored).symm
    next => rfl
  exact ⟨hcompile, Engine.outcome_evaluate_congr hcompile⟩

/-! ## Engines that leave braces alone -/

/-- A text in braces whose program is in the cache: that of the text in the braces, which an engine
with both settings on has compiled or evaluated before. -/
def Leaked (calls : List (Engine × Call)) (text : String) : Prop :=
  ∃ inner, text = braced inner ∧ (∃ program, Program.ofText inner = .ok program) ∧
    ∃ entry ∈ calls, entry.1.unwrapBraces = true ∧ entry.1.useCache = true ∧
      entry.2.text? = some text

/-- Only an engine that takes braces off has a program for a text that begins with one. -/
theorem Engine.exists_braced_of_source {engine : Engine} {text : String} {program : Program}
    (hhead : text.toList.head? = some '\x7b')
    (hprogram : Program.ofText (engine.source text) = .ok program) :
    engine.unwrapBraces = true ∧
      ∃ inner, text = braced inner ∧ Program.ofText inner = .ok program := by
  have hraw : Program.ofText text ≠ .ok program := by
    rw [Program.ofText_eq_error_of_brace hhead]
    simp
  unfold source at hprogram
  split at hprogram
  next hunwrap =>
    refine ⟨hunwrap, ?_⟩
    rcases unwrapBraces_eq_self_or text with hself | ⟨inner, rfl⟩
    · rw [hself] at hprogram
      exact absurd hprogram hraw
    · rw [unwrapBraces_braced] at hprogram
      exact ⟨inner, rfl, hprogram⟩
  next => exact absurd hprogram hraw

theorem leaked_iff_contains {calls : List (Engine × Call)} {text : String}
    (hhead : text.toList.head? = some '\x7b') :
    Leaked calls text ↔ (Cache.afterAll {} calls).contains text = true := by
  rw [Cache.contains_afterAll_iff]
  constructor
  · intro hleaked
    obtain ⟨inner, rfl, ⟨program, hprogram⟩, entry, hentry, hunwrap, hcache, htext⟩ := hleaked
    refine .inr ⟨entry, hentry, hcache, htext, program, ?_⟩
    rw [Engine.source, if_pos hunwrap, unwrapBraces_braced]
    exact hprogram
  · intro hcontains
    rcases hcontains with hempty | ⟨entry, hentry, hcache, htext, program, hprogram⟩
    · cases hempty
    · obtain ⟨hunwrap, inner, heq, hinner⟩ := Engine.exists_braced_of_source hhead hprogram
      exact ⟨inner, heq, ⟨program, hinner⟩, entry, hentry, hunwrap, hcache, htext⟩

theorem Leaked.contains {calls : List (Engine × Call)} {text : String}
    (hleaked : Leaked calls text) : (Cache.afterAll {} calls).contains text = true := by
  have hhead : text.toList.head? = some '\x7b' := by
    obtain ⟨inner, rfl, _⟩ := hleaked
    exact head?_braced inner
  exact (leaked_iff_contains hhead).mp hleaked

namespace Engine

variable (calls : List (Engine × Call)) (useCache : Bool) (text : String)

/-- An engine that leaves braces alone either compiles a text like a new one, or answers with the
program of a text that has leaked, where a new engine reports the brace. -/
theorem outcome_compile_literal :
    ¬ (useCache = true ∧ Leaked calls text) ∧
        (compile ⟨false, useCache⟩ (Cache.afterAll {} calls) text).1.outcome =
          Program.ofText text ∨
      (useCache = true ∧ Leaked calls text) ∧
        Program.ofText text = .error (.invalidCharacter "\x7b") ∧
        ∃ program, (compile ⟨false, useCache⟩ (Cache.afterAll {} calls) text).1.outcome =
          .ok program := by
  rw [outcome_compile]
  cases hstored : stored? ⟨false, useCache⟩ (Cache.afterAll {} calls) text with
  | none =>
      refine .inl ⟨?_, rfl⟩
      intro hleak
      obtain ⟨rfl, hleaked⟩ := hleak
      obtain ⟨program, hfound⟩ := Cache.exists_find?_of_contains hleaked.contains
      rw [stored?, if_pos rfl, hfound] at hstored
      cases hstored
  | some program =>
      have hcache : useCache = true := by
        cases useCache with
        | false => cases hstored
        | true => rfl
      subst hcache
      have hfound : (Cache.afterAll {} calls).find? text = some program := hstored
      by_cases hhead : text.toList.head? = some '\x7b'
      · have hleaked : Leaked calls text := (leaked_iff_contains hhead).mpr
          (Cache.contains_eq_true_iff.mpr ⟨program, Cache.mem_of_find? hfound⟩)
        exact .inr ⟨⟨rfl, hleaked⟩, Program.ofText_eq_error_of_brace hhead, program, rfl⟩
      · refine .inl ⟨?_, ?_⟩
        · intro hleak
          obtain ⟨_, inner, rfl, _⟩ := hleak
          exact hhead (head?_braced inner)
        · rw [← unwrapBraces_eq_self hhead]
          exact ((Cache.sound_empty.afterAll calls).eq_of_stored? hstored).symm

theorem compile_literal_iff :
    (compile ⟨false, useCache⟩ (Cache.afterAll {} calls) text).1.outcome =
        (compile ⟨false, false⟩ {} text).1.outcome ↔
      ¬ (useCache = true ∧ Leaked calls text) := by
  rw [outcome_compile_empty]
  rcases outcome_compile_literal calls useCache text with hsame | hother
  · exact ⟨fun _ => hsame.1, fun _ => hsame.2⟩
  · obtain ⟨hleak, herror, program, hprogram⟩ := hother
    refine ⟨?_, fun hno => absurd hleak hno⟩
    intro heq
    have himpossible := hprogram.symm.trans (heq.trans herror)
    cases himpossible

theorem evaluate_literal_iff (bindings : Bindings) :
    (evaluate ⟨false, useCache⟩ (Cache.afterAll {} calls) text bindings).1.outcome =
        (evaluate ⟨false, false⟩ {} text bindings).1.outcome ↔
      ¬ (useCache = true ∧ Leaked calls text) := by
  have hfresh : (compile ⟨false, false⟩ {} text).1.outcome = Program.ofText text :=
    outcome_compile_empty ⟨false, false⟩ text
  rcases outcome_compile_literal calls useCache text with hsame | hother
  · have hcompile := hsame.2.trans hfresh.symm
    exact ⟨fun _ => hsame.1, fun _ => outcome_evaluate_congr hcompile bindings⟩
  · obtain ⟨hleak, herror, program, hprogram⟩ := hother
    refine ⟨?_, fun hno => absurd hleak hno⟩
    intro heq
    have hne : text ≠ "" := by
      obtain ⟨_, inner, rfl, _⟩ := hleak
      exact braced_ne_empty inner
    rw [outcome_evaluate _ _ hne, outcome_evaluate _ _ hne, hprogram, hfresh, herror] at heq
    have hrun : program.run bindings = .error (.invalidCharacter "\x7b") := heq
    -- A run may fail as well, but it never reports a character.
    rcases Program.error_of_run hrun with hname | hinternal
    · obtain ⟨name, hname⟩ := hname
      cases hname
    · cases hinternal

theorem outcome_of_brace {engine : Engine} (hliteral : engine.unwrapBraces = false)
    (rest : String) :
    (engine.compile {} ("\x7b" ++ rest)).1.outcome = .error (.invalidCharacter "\x7b") ∧
      ∀ bindings, (engine.evaluate {} ("\x7b" ++ rest) bindings).1.outcome =
        .error (.invalidCharacter "\x7b") := by
  have hhead : ("\x7b" ++ rest).toList.head? = some '\x7b' := by
    rw [String.toList_append]
    rfl
  have hne : "\x7b" ++ rest ≠ "" := by
    intro hempty
    rw [hempty] at hhead
    cases hhead
  have hcompile : (engine.compile {} ("\x7b" ++ rest)).1.outcome =
      .error (.invalidCharacter "\x7b") := by
    rw [outcome_compile_empty, source, if_neg (by simp [hliteral])]
    exact Program.ofText_eq_error_of_brace hhead
  refine ⟨hcompile, ?_⟩
  intro bindings
  rw [outcome_evaluate _ _ hne, hcompile]
  rfl

/-- After some calls, an engine that leaves braces alone answers like a new one that does not use a
cache, except for a text that has leaked into the cache that it uses. A new one fails for all texts
that begin with a brace. -/
theorem literal_answers_iff :
    ((compile ⟨false, useCache⟩ (Cache.afterAll {} calls) text).1.outcome =
        (compile ⟨false, false⟩ {} text).1.outcome ↔
      ¬ (useCache = true ∧ Leaked calls text)) ∧
    (∀ bindings,
      (evaluate ⟨false, useCache⟩ (Cache.afterAll {} calls) text bindings).1.outcome =
          (evaluate ⟨false, false⟩ {} text bindings).1.outcome ↔
        ¬ (useCache = true ∧ Leaked calls text)) ∧
    ∀ rest,
      (compile ⟨false, false⟩ {} ("\x7b" ++ rest)).1.outcome =
          .error (.invalidCharacter "\x7b") ∧
        ∀ bindings, (evaluate ⟨false, false⟩ {} ("\x7b" ++ rest) bindings).1.outcome =
          .error (.invalidCharacter "\x7b") :=
  ⟨compile_literal_iff calls useCache text, evaluate_literal_iff calls useCache text,
    outcome_of_brace rfl⟩

/-- Once an engine that takes braces off has evaluated a text in braces, one that leaves them alone
gives the same value, where a new one reports the brace. -/
theorem evaluate_leaked :
    (evaluate ⟨false, true⟩
        (Cache.afterAll {} [({}, .evaluate (braced "2+2") Bindings.empty)])
        (braced "2+2") Bindings.empty).1.outcome = .ok (.number 4) ∧
      (evaluate ⟨false, false⟩ {} (braced "2+2") Bindings.empty).1.outcome =
        .error (.invalidCharacter "\x7b") := by
  decide +kernel

end Engine

end Formula
