import Formula.Proofs.Sharing
import Formula.Session

/-!
# Bindings and caches

The bindings of an evaluation are looked at when the program runs, and by then the cache has done
its part. Two sessions in which the same is asked, but for the bindings of evaluations, therefore
cannot be told apart: not by their caches after any step, not by what is reported, and not by the
replies, except for the values themselves. Within one session, an evaluation leaves what the
compilation of its text leaves, whether or not there is a value in the end.
-/

namespace Formula

/-! ## Evaluations and compilations -/

namespace Engine

variable (engine : Engine) (cache : Cache)

theorem cache_evaluate {text : String} (hne : text ≠ "") (bindings : Bindings) :
    (engine.evaluate cache text bindings).2 = (engine.compile cache text).2 := by
  rw [evaluate, if_neg (by simpa using hne)]

theorem events_evaluate {text : String} (hne : text ≠ "") (bindings : Bindings) :
    (engine.evaluate cache text bindings).1.events = (engine.compile cache text).1.events := by
  rw [evaluate, if_neg (by simpa using hne)]
  -- A run reports nothing, so that there are the events of the compilation in either case.
  dsimp only
  unfold Traced.andThen
  cases (engine.compile cache text).1.outcome with
  | error error => rfl
  | ok program => exact List.append_nil _

/-- The empty text has a program without steps, which is stored like any other. -/
theorem cache_compile_empty {engine : Engine} {cache : Cache} (hcache : engine.useCache = true)
    (habsent : cache.find? "" = none) :
    (engine.compile cache "").2 =
      { cache with
        programs := ("", ⟨[]⟩) :: cache.programs
        compilations := cache.compilations + 1 } := by
  have hprogram : (Program.compile (engine.source "")).outcome = .ok ⟨[]⟩ := by
    obtain ⟨_ | _, useCache⟩ := engine <;> rfl
  rw [compile, if_pos hcache, Cache.request_of_ok habsent hprogram]

end Engine

namespace Session

/-! ## Runs of a session -/

/-- The session after a request, which leaves it as it is if it is not answered. -/
def after (session : Session) (request : Request) : Session :=
  match session.answer request with
  | some (_, _, next) => next
  | none => session

/-- A request of a session and what came of it. -/
structure Step where
  request : Request
  /-- The reply and what was reported before it, if the request was answered. -/
  answer : Option (Reply × List Event)
  /-- The session afterwards. -/
  session : Session

def step (session : Session) (request : Request) : Step where
  request := request
  answer := (session.answer request).map fun (reply, events, _) => (reply, events)
  session := session.after request

/-- What comes of requests that are made one after another. -/
def run (session : Session) : List Request → List Step
  | [] => []
  | request :: rest => session.step request :: (session.after request).run rest

def Request.isEvaluation : Request → Bool
  | .evaluate _ _ _ => true
  | _ => false

/-- Two requests are the same, but for the bindings if they are evaluations. -/
inductive Request.SameButBindings : Request → Request → Prop where
  | refl (request : Request) : SameButBindings request request
  | evaluate (engine text : String) (bindings others : Bindings) :
      SameButBindings (.evaluate engine text bindings) (.evaluate engine text others)

/-- Two steps look the same, except for the value if they are evaluations: all caches and engines
are the same afterwards, and so are the events and the reply. -/
structure Step.Alike (one other : Step) : Prop where
  session : one.session = other.session
  events : one.answer.map Prod.snd = other.answer.map Prod.snd
  reply : one.request.isEvaluation = false →
    one.answer.map Prod.fst = other.answer.map Prod.fst

/-! ## Requests that differ in bindings -/

variable {session : Session} {request other : Request}

theorem after_congr
    (hsame : (session.answer request).map Prod.snd = (session.answer other).map Prod.snd) :
    session.after request = session.after other := by
  unfold after
  cases hrequest : session.answer request <;> cases hother : session.answer other <;>
    simp_all

/-- What a computation leaves of a session does not depend on its outcome. -/
theorem map_snd_change {α β : Type} (place : Nat) {toReply : Except Error α → Reply}
    {toReply' : Except Error β → Reply} {action : Cache → Traced α × Cache}
    {action' : Cache → Traced β × Cache}
    (hevents : ∀ cache, (action cache).1.events = (action' cache).1.events)
    (hcache : ∀ cache, (action cache).2 = (action' cache).2) :
    (session.change place toReply action).map Prod.snd =
      (session.change place toReply' action').map Prod.snd := by
  unfold change
  cases session.caches[place]? with
  | none => rfl
  | some cache => simp [hevents, hcache]

theorem answer_evaluate (session : Session) (name text : String) (bindings : Bindings) :
    session.answer (.evaluate name text bindings) =
      (session.engines.lookup name).bind fun found =>
        session.change found.2 .value fun cache => found.1.evaluate cache text bindings := rfl

theorem answer_compile (session : Session) (name text : String) :
    session.answer (.compile name text) =
      (session.engines.lookup name).bind fun found =>
        session.change found.2 .program fun cache => found.1.compile cache text := rfl

/-- An evaluation and the compilation of its text leave the same. -/
theorem map_snd_evaluate {name text : String} (hne : text ≠ "") (bindings : Bindings) :
    (session.answer (.evaluate name text bindings)).map Prod.snd =
      (session.answer (.compile name text)).map Prod.snd := by
  rw [answer_evaluate, answer_compile]
  cases session.engines.lookup name with
  | none => rfl
  | some found =>
      exact map_snd_change found.2 (fun cache => found.1.events_evaluate cache hne bindings)
        fun cache => found.1.cache_evaluate cache hne bindings

theorem map_snd_evaluate_congr (session : Session) (name text : String)
    (bindings others : Bindings) :
    (session.answer (.evaluate name text bindings)).map Prod.snd =
      (session.answer (.evaluate name text others)).map Prod.snd := by
  by_cases hempty : text = ""
  · subst hempty
    rfl
  · rw [map_snd_evaluate hempty, map_snd_evaluate hempty]

/-- Requests that are the same but for bindings come to steps that look alike. -/
theorem step_alike (session : Session) (hsame : request.SameButBindings other) :
    (session.step request).Alike (session.step other) := by
  cases hsame with
  | refl => exact ⟨rfl, rfl, fun _ => rfl⟩
  | evaluate name text bindings others =>
      have hsnd := session.map_snd_evaluate_congr name text bindings others
      refine ⟨after_congr hsnd, ?_, fun hother => by cases hother⟩
      have hevents := congrArg (Option.map Prod.fst) hsnd
      simpa [step, Function.comp_def] using hevents

theorem run_alike (session : Session) {requests others : List Request}
    (hsame : List.Forall₂ Request.SameButBindings requests others) :
    List.Forall₂ Step.Alike (session.run requests) (session.run others) := by
  induction hsame generalizing session with
  | nil => exact .nil
  | @cons request other requests others hfirst _ ih =>
      have hafter : session.after request = session.after other :=
        (session.step_alike hfirst).session
      rw [run, run, ← hafter]
      exact .cons (session.step_alike hfirst) (ih _)

/-! ## The empty text -/

theorem replaceCache_self {place : Nat} {cache : Cache}
    (hcache : session.caches[place]? = some cache) :
    session.replaceCache place cache = session := by
  obtain ⟨hplace, rfl⟩ := List.getElem?_eq_some_iff.mp hcache
  rw [replaceCache, List.set_getElem_self]

theorem after_evaluate_empty (session : Session) (name : String) (bindings : Bindings) :
    session.after (.evaluate name "" bindings) = session := by
  rw [after, answer_evaluate]
  cases session.engines.lookup name with
  | none => rfl
  | some found =>
      dsimp only [Option.bind_some, change]
      cases hcache : session.caches[found.2]? with
      | none => rfl
      | some cache => exact replaceCache_self hcache

theorem after_compile {name : String} {engine : Engine} {place : Nat} {cache : Cache}
    (hengine : session.engines.lookup name = some (engine, place))
    (hcache : session.caches[place]? = some cache) (text : String) :
    session.after (.compile name text) =
      session.replaceCache place (engine.compile cache text).2 := by
  rw [after, answer_compile, hengine]
  dsimp only [Option.bind_some, change]
  rw [hcache]
  rfl

/-- Two sessions in which the same is asked but for the bindings of evaluations agree in every step:
in all that is left, in what is reported, and in all replies that are not values. In any session, an
evaluation leaves what the compilation of its text leaves, whatever its value is. The empty text is
the exception, whose evaluation changes nothing while its compilation stores a program. -/
theorem alike_run_of_sameButBindings (session : Session) {requests others : List Request}
    (hsame : List.Forall₂ Request.SameButBindings requests others) :
    List.Forall₂ Step.Alike (session.run requests) (session.run others) ∧
    (∀ name text bindings, text ≠ "" →
      session.after (.evaluate name text bindings) = session.after (.compile name text)) ∧
    (∀ name bindings, session.after (.evaluate name "" bindings) = session) ∧
    ∀ name engine place cache, session.engines.lookup name = some (engine, place) →
      session.caches[place]? = some cache → engine.useCache = true → cache.find? "" = none →
      session.after (.compile name "") = session.replaceCache place
        { cache with
          programs := ("", ⟨[]⟩) :: cache.programs
          compilations := cache.compilations + 1 } := by
  refine ⟨session.run_alike hsame, ?_, session.after_evaluate_empty, ?_⟩
  · intro name text bindings hne
    exact after_congr (map_snd_evaluate hne bindings)
  · intro name engine place cache hengine hcache huse habsent
    rw [after_compile hengine hcache, Engine.cache_compile_empty huse habsent]

/-- A name is bound in one session and not in the other, so that only one of them has a value. The
caches agree all the same, and hold what a compilation would have stored. -/
theorem alike_run_of_sameButBindings_unbound :
    let session := after {} (.newEngine "a" {} .fresh)
    let asked (bindings : Bindings) : List Request :=
      [.evaluate "a" "x" bindings, .contains (.engine "a") "x"]
    (Engine.evaluate {} {} "x" fun _ => some 2).1.outcome = .ok (.number 2) ∧
      (Engine.evaluate {} {} "x" Bindings.empty).1.outcome = .error (.undefinedVariable "x") ∧
      List.Forall₂ Step.Alike (session.run (asked fun _ => some 2))
        (session.run (asked Bindings.empty)) ∧
      session.after (.evaluate "a" "x" Bindings.empty) = session.after (.compile "a" "x") ∧
      session.after (.compile "a" "") =
        session.replaceCache 0 { programs := [("", ⟨[]⟩)], compilations := 1 } := by
  intro session asked
  have hsame : List.Forall₂ Request.SameButBindings (asked fun _ => some 2)
      (asked Bindings.empty) :=
    .cons (.evaluate "a" "x" _ _) (.cons (.refl _) .nil)
  obtain ⟨halike, hevaluate, _, hempty⟩ := alike_run_of_sameButBindings session hsame
  exact ⟨by decide +kernel, by decide +kernel, halike,
    hevaluate "a" "x" Bindings.empty (by decide), hempty "a" {} 0 {} rfl rfl rfl rfl⟩

end Session

end Formula
