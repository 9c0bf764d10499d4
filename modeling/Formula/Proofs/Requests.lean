import Formula.Proofs.Cache
import Mathlib.Data.List.Basic

/-!
# Runs of requests

What a cache holds under a key is decided by the first request for that key whose compilation
succeeds: from then on every request for the key is answered with that program, whatever compilation
comes with it. A request that fails leaves no trace but in the count of compilations. The main
statement is about any cache, any requests one after another, and compilations that need not agree
with each other.
-/

namespace Formula

namespace Cache

/-- What is asked of a cache: the key of a program, and the compilation that makes the program if
there is none under the key. -/
structure Request where
  key : String
  compile : Unit → Traced Program

/-- The answer to a request, and the cache afterwards. -/
def serve (cache : Cache) (asked : Request) : Traced Program × Cache :=
  cache.request asked.key asked.compile

/-- The cache after some requests. -/
def afterRequests (cache : Cache) (requests : List Request) : Cache :=
  requests.foldl (fun cache asked => (cache.serve asked).2) cache

/-- The outcomes of some requests that are made one after another, each with its key. -/
def answers (cache : Cache) : List Request → List (String × Except Error Program)
  | [] => []
  | asked :: rest =>
      (asked.key, (cache.serve asked).1.outcome) :: (cache.serve asked).2.answers rest

variable {cache : Cache} {asked : Request} {requests : List Request} {key : String}
  {program : Program} {error : Error}

/-! ## One request -/

/-- All that a request can do. -/
theorem serve_cases (cache : Cache) (asked : Request) :
    (∃ program, cache.find? asked.key = some program ∧
      cache.serve asked =
        (⟨.ok program, [.cacheHit asked.key]⟩, { cache with hits := cache.hits + 1 })) ∨
    (∃ program, cache.find? asked.key = none ∧ (asked.compile ()).outcome = .ok program ∧
      cache.serve asked =
        (⟨.ok program, (asked.compile ()).events ++ [.compiled asked.key program.length]⟩,
          { cache with
            programs := (asked.key, program) :: cache.programs
            compilations := cache.compilations + 1 })) ∨
    ∃ error, cache.find? asked.key = none ∧ (asked.compile ()).outcome = .error error ∧
      cache.serve asked =
        (⟨.error error, (asked.compile ()).events ++ [.compilationFailed asked.key error]⟩,
          { cache with compilations := cache.compilations + 1 }) := by
  cases hfind : cache.find? asked.key with
  | some program => exact .inl ⟨program, rfl, request_of_found hfind⟩
  | none =>
      cases hmade : (asked.compile ()).outcome with
      | ok program => exact .inr (.inl ⟨program, rfl, rfl, request_of_ok hfind hmade⟩)
      | error error => exact .inr (.inr ⟨error, rfl, rfl, request_of_error hfind hmade⟩)

theorem outcome_serve_of_found (hfound : cache.find? asked.key = some program) :
    (cache.serve asked).1.outcome = .ok program := by
  rw [serve, request_of_found hfound]

theorem outcome_serve_of_absent (habsent : cache.find? asked.key = none) :
    (cache.serve asked).1.outcome = (asked.compile ()).outcome := by
  rcases cache.serve_cases asked with ⟨program, hfind, _⟩ | ⟨program, _, hmade, hserve⟩ |
    ⟨error, _, hmade, hserve⟩
  · cases habsent.symm.trans hfind
  · rw [hserve, hmade]
  · rw [hserve, hmade]

/-- A request that fails has begun its compilation, which has failed as well, and that is all that
the cache keeps of it. -/
theorem serve_of_error (herror : (cache.serve asked).1.outcome = .error error) :
    cache.find? asked.key = none ∧ (asked.compile ()).outcome = .error error ∧
      (cache.serve asked).2 = { cache with compilations := cache.compilations + 1 } := by
  rcases cache.serve_cases asked with ⟨program, _, hserve⟩ | ⟨program, _, _, hserve⟩ |
    ⟨error', hfind, hmade, hserve⟩
  · rw [hserve] at herror
    cases herror
  · rw [hserve] at herror
    cases herror
  · rw [hserve] at herror ⊢
    exact ⟨hfind, hmade.trans herror, rfl⟩

/-- Under the key of a request, a cache holds its answer afterwards, and nothing if the answer is an
error. -/
theorem find?_serve_self (cache : Cache) (asked : Request) :
    (cache.serve asked).2.find? asked.key = (cache.serve asked).1.outcome.toOption := by
  rcases cache.serve_cases asked with ⟨program, hfind, hserve⟩ | ⟨program, _, _, hserve⟩ |
    ⟨error, hfind, _, hserve⟩
  · rw [hserve]
    exact hfind
  · rw [hserve]
    exact List.lookup_cons_self
  · rw [hserve]
    exact hfind

theorem find?_serve_of_ne (hne : key ≠ asked.key) :
    (cache.serve asked).2.find? key = cache.find? key := by
  rcases cache.serve_cases asked with ⟨program, _, hserve⟩ | ⟨program, _, _, hserve⟩ |
    ⟨error, _, _, hserve⟩
  · rw [hserve]
    rfl
  · rw [hserve, find?, find?, List.lookup_cons, beq_false_of_ne hne]
  · rw [hserve]
    rfl

theorem find?_serve_eq_some_iff :
    (cache.serve asked).2.find? key = some program ↔
      cache.find? key = some program ∨
        asked.key = key ∧ (cache.serve asked).1.outcome = .ok program := by
  by_cases hkey : key = asked.key
  · -- A program that was stored before is also the answer, so that only the answer matters.
    subst hkey
    rw [find?_serve_self]
    constructor
    · intro hstored
      cases houtcome : (cache.serve asked).1.outcome with
      | ok answer =>
          rw [houtcome] at hstored
          exact .inr ⟨rfl, congrArg Except.ok (Option.some.inj hstored)⟩
      | error error =>
          rw [houtcome] at hstored
          cases hstored
    · intro hknown
      have houtcome : (cache.serve asked).1.outcome = .ok program := by
        rcases hknown with hfound | ⟨_, hanswer⟩
        · exact outcome_serve_of_found hfound
        · exact hanswer
      rw [houtcome]
      rfl
  · rw [find?_serve_of_ne hkey]
    exact ⟨.inl, fun hknown => hknown.resolve_right fun hanswer => hkey hanswer.1.symm⟩

/-! ## Requests one after another -/

/-- A cache holds what it has held before and what it has answered. -/
theorem find?_afterRequests_eq_some_iff :
    (cache.afterRequests requests).find? key = some program ↔
      cache.find? key = some program ∨ (key, .ok program) ∈ cache.answers requests := by
  induction requests generalizing cache with
  | nil => simp [afterRequests, answers]
  | cons asked rest ih =>
      change ((cache.serve asked).2.afterRequests rest).find? key = some program ↔ _
      rw [ih, find?_serve_eq_some_iff, answers, List.mem_cons, or_assoc, Prod.mk.injEq,
        eq_comm (a := key), eq_comm (a := Except.ok program)]

/-- Once a cache holds a program, it answers with that program. -/
theorem answer_of_found (hfound : cache.find? key = some program) :
    ∀ answer ∈ cache.answers requests, answer.1 = key → answer.2 = .ok program := by
  induction requests generalizing cache with
  | nil => simp [answers]
  | cons asked rest ih =>
      refine List.forall_mem_cons.mpr ⟨?_, ih (find?_serve_eq_some_iff.mpr (.inl hfound))⟩
      rintro rfl
      exact outcome_serve_of_found hfound

/-- The first program that is answered for a key is answered from then on. -/
theorem pairwise_answers (cache : Cache) (requests : List Request) :
    (cache.answers requests).Pairwise fun earlier later =>
      ∀ program, earlier.2 = .ok program → later.1 = earlier.1 → later.2 = .ok program := by
  induction requests generalizing cache with
  | nil => exact List.Pairwise.nil
  | cons asked rest ih =>
      refine List.Pairwise.cons ?_ (ih _)
      intro later hlater program hprogram hkey
      have hstored : (cache.serve asked).2.find? asked.key = some program :=
        find?_serve_eq_some_iff.mpr (.inr ⟨rfl, hprogram⟩)
      exact answer_of_found hstored later hlater hkey

/-- A key without a program is still free after requests that have not answered it with one, and a
compilation that succeeds is stored then. -/
theorem serve_afterRequests_of_ok (asked : Request) (habsent : cache.find? asked.key = none)
    (hnone : ∀ other, (asked.key, .ok other) ∉ cache.answers requests)
    (hmade : (asked.compile ()).outcome = .ok program) :
    ((cache.afterRequests requests).serve asked).1.outcome = .ok program ∧
      ((cache.afterRequests requests).serve asked).2.find? asked.key = some program := by
  have hfree : (cache.afterRequests requests).find? asked.key = none := by
    refine Option.eq_none_iff_forall_ne_some.mpr fun other hother => ?_
    rcases find?_afterRequests_eq_some_iff.mp hother with hbefore | hanswer
    · cases habsent.symm.trans hbefore
    · exact hnone other hanswer
  have houtcome := (outcome_serve_of_absent hfree).trans hmade
  exact ⟨houtcome, find?_serve_eq_some_iff.mpr (.inr ⟨rfl, houtcome⟩)⟩

/-- The first program that is answered for a key is the answer to all later requests for the key,
and it is what the cache holds from then on. A request leaves other keys alone. One that fails
answers with the error of its own compilation, is counted as a compilation and changes nothing else;
after any requests that have not succeeded for its key either, a compilation that does succeed is
stored and answered. -/
theorem answers_write_once (cache : Cache) (asked : Request) (requests : List Request) :
    ((cache.answers requests).Pairwise fun earlier later =>
      ∀ program, earlier.2 = .ok program → later.1 = earlier.1 → later.2 = .ok program) ∧
    (∀ key program, (key, .ok program) ∈ cache.answers requests →
      (cache.afterRequests requests).find? key = some program) ∧
    (∀ key ≠ asked.key, (cache.serve asked).2.find? key = cache.find? key) ∧
    ∀ error, (cache.serve asked).1.outcome = .error error →
      (asked.compile ()).outcome = .error error ∧
      (cache.serve asked).2 = { cache with compilations := cache.compilations + 1 } ∧
      (cache.serve asked).2.find? asked.key = none ∧
      ∀ compile program, (∀ other, (asked.key, .ok other) ∉ (cache.serve asked).2.answers requests) →
        (compile ()).outcome = .ok program →
        (((cache.serve asked).2.afterRequests requests).serve ⟨asked.key, compile⟩).1.outcome =
            .ok program ∧
          (((cache.serve asked).2.afterRequests requests).serve ⟨asked.key, compile⟩).2.find?
            asked.key = some program := by
  refine ⟨cache.pairwise_answers requests, ?_, fun key hne => find?_serve_of_ne hne, ?_⟩
  · intro key program hanswer
    exact find?_afterRequests_eq_some_iff.mpr (.inr hanswer)
  · intro error herror
    obtain ⟨_, hmade, hafter⟩ := serve_of_error herror
    have habsent : (cache.serve asked).2.find? asked.key = none := by
      rw [find?_serve_self, herror]
      rfl
    refine ⟨hmade, hafter, habsent, ?_⟩
    intro compile program hnone hprogram
    exact serve_afterRequests_of_ok ⟨asked.key, compile⟩ habsent hnone hprogram

/-- A key whose compilations have failed twice still takes the program of one that succeeds. -/
theorem answers_write_once_recovery :
    let failing : Request := ⟨"1e", fun _ => .fail (.malformedNumber "1e")⟩
    let program : Program := ⟨[.push (.number 1)]⟩
    let later : Request := ⟨"1e", fun _ => .silent (.ok program)⟩
    (((serve {} failing).2.afterRequests [failing]).serve later).2.find? "1e" = some program := by
  intro failing program later
  obtain ⟨_, _, _, hfailed⟩ := answers_write_once {} failing [failing]
  obtain ⟨_, _, _, hlater⟩ := hfailed (.malformedNumber "1e") rfl
  refine (hlater later.compile program ?_ rfl).2
  intro other hanswer
  cases List.mem_singleton.mp hanswer

end Cache

end Formula
