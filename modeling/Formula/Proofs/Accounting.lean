import Formula.Proofs.Requests
import Formula.Proofs.Sharing
import Mathlib.Data.List.Dedup

/-!
# What the counts of a cache say

A cache is asked for programs directly and by the engines that work with it. Whatever is done, its
two counts and its size add up: each request is a hit or begins a compilation, each compilation
stores a program or fails, and no key is stored twice. A request is a hit exactly if a program has
been answered for its key before. What is done without a request does not show in the cache at all.
-/

namespace Formula

/-! ## Operations and their requests -/

/-- What can be done with a cache: ask it for a program, or call an engine that works with it. -/
inductive Operation where
  | direct (asked : Cache.Request)
  | through (engine : Engine) (call : Call)

namespace Operation

/-- The cache after an operation. -/
def after (cache : Cache) : Operation → Cache
  | direct asked => (cache.serve asked).2
  | through engine call => call.after engine cache

/-- The request that an operation makes, if it makes one. An engine asks for the program of a text
if it uses the cache, under the text as it was given. -/
def request? : Operation → Option Cache.Request
  | direct asked => some asked
  | through engine call =>
      if engine.useCache then
        call.text?.map fun text => ⟨text, fun _ => Program.compile (engine.source text)⟩
      else none

/-- An operation does to the cache what its request does. -/
theorem after_eq_serve (cache : Cache) (operation : Operation) :
    operation.after cache =
      match operation.request? with
      | some asked => (cache.serve asked).2
      | none => cache := by
  cases operation with
  | direct asked => rfl
  | through engine call =>
      rw [after, Call.after_eq, request?]
      cases call.text? with
      | none => cases engine.useCache <;> rfl
      | some text =>
          unfold Engine.compile
          cases engine.useCache <;> rfl

end Operation

namespace Cache

/-- The cache after some operations. -/
def afterOperations (cache : Cache) (operations : List Operation) : Cache :=
  operations.foldl (fun cache operation => operation.after cache) cache

theorem afterOperations_eq (cache : Cache) (operations : List Operation) :
    cache.afterOperations operations =
      cache.afterRequests (operations.filterMap Operation.request?) := by
  induction operations generalizing cache with
  | nil => rfl
  | cons operation rest ih =>
      change (operation.after cache).afterOperations rest = _
      rw [ih, operation.after_eq_serve, List.filterMap_cons]
      cases operation.request? <;> rfl

/-! ## Hits and misses -/

/-- A request is a hit: it is counted as one, and its compilation has no part in what happens. -/
def IsHit (cache : Cache) (asked : Request) : Prop :=
  (cache.serve asked).2 = { cache with hits := cache.hits + 1 } ∧
    ∀ compile, cache.serve ⟨asked.key, compile⟩ = cache.serve asked

/-- A request is a miss: a compilation is counted, the answer is the outcome of the compilation that
comes with the request, and what is reported begins with its events. -/
def IsMiss (cache : Cache) (asked : Request) : Prop :=
  (cache.serve asked).2.hits = cache.hits ∧
    (cache.serve asked).2.compilations = cache.compilations + 1 ∧
    (cache.serve asked).1.outcome = (asked.compile ()).outcome ∧
    (asked.compile ()).events <+: (cache.serve asked).1.events

variable {cache : Cache} {asked : Request} {requests : List Request} {key : String}
  {earlier : List (String × Except Error Program)}

theorem isHit_of_found {program : Program} (hfound : cache.find? asked.key = some program) :
    cache.IsHit asked := by
  have hserve (compile : Unit → Traced Program) : cache.serve ⟨asked.key, compile⟩ =
      (⟨.ok program, [.cacheHit asked.key]⟩, { cache with hits := cache.hits + 1 }) :=
    request_of_found hfound
  exact ⟨congrArg Prod.snd (hserve asked.compile), fun compile =>
    (hserve compile).trans (hserve asked.compile).symm⟩

theorem isMiss_of_absent (habsent : cache.find? asked.key = none) : cache.IsMiss asked := by
  rcases cache.serve_cases asked with ⟨program, hfind, _⟩ | ⟨program, _, hmade, hserve⟩ |
    ⟨error, _, hmade, hserve⟩
  · cases habsent.symm.trans hfind
  · rw [IsMiss, hserve]
    exact ⟨rfl, rfl, hmade.symm, List.prefix_append _ _⟩
  · rw [IsMiss, hserve]
    exact ⟨rfl, rfl, hmade.symm, List.prefix_append _ _⟩

theorem IsHit.not_isMiss (hhit : cache.IsHit asked) : ¬ cache.IsMiss asked := by
  intro hmiss
  have hhits := hmiss.1
  rw [hhit.1] at hhits
  exact absurd hhits (Nat.succ_ne_self cache.hits)

/-- A request is a hit or a miss, and it is a hit exactly if there is a program under its key. -/
theorem isHit_iff : cache.IsHit asked ↔ ∃ program, cache.find? asked.key = some program := by
  refine ⟨fun hhit => ?_, fun hfound => isHit_of_found hfound.choose_spec⟩
  cases hfind : cache.find? asked.key with
  | some program => exact ⟨program, rfl⟩
  | none => exact absurd (isMiss_of_absent hfind) hhit.not_isMiss

theorem isMiss_iff : cache.IsMiss asked ↔ ¬ cache.IsHit asked := by
  refine ⟨fun hmiss hhit => hhit.not_isMiss hmiss, fun hhit => ?_⟩
  refine isMiss_of_absent (Option.eq_none_iff_forall_ne_some.mpr fun program hfound => ?_)
  exact hhit (isHit_of_found hfound)

/-! ## The counts -/

/-- The keys that have been answered with a program, each as often as it has been. -/
def granted (answers : List (String × Except Error Program)) : List String :=
  (answers.filter fun answer => answer.2.isOk).map Prod.fst

/-- How many answers are errors. -/
def failures (answers : List (String × Except Error Program)) : Nat :=
  answers.countP fun answer => !answer.2.isOk

def keys (cache : Cache) : List String := cache.programs.map Prod.fst

theorem mem_granted_iff : key ∈ granted earlier ↔ ∃ program, (key, .ok program) ∈ earlier := by
  unfold granted
  constructor
  · intro hkey
    obtain ⟨⟨stored, outcome⟩, hanswer, rfl⟩ := List.mem_map.mp hkey
    obtain ⟨hmem, hok⟩ := List.mem_filter.mp hanswer
    cases outcome with
    | ok program => exact ⟨program, hmem⟩
    | error error => cases hok
  · intro hanswer
    obtain ⟨program, hmem⟩ := hanswer
    exact List.mem_map.mpr ⟨_, List.mem_filter.mpr ⟨hmem, rfl⟩, rfl⟩

theorem mem_keys_iff : key ∈ cache.keys ↔ ∃ program, cache.find? key = some program := by
  rw [← Option.isSome_iff_exists]
  change _ ↔ cache.contains key = true
  rw [contains_eq_true_iff, keys]
  simp

/-- The counts of a cache agree with the answers that it has given since it was empty. -/
structure Accounts (cache : Cache) (answers : List (String × Except Error Program)) : Prop where
  hits_add_compilations : cache.hits + cache.compilations = answers.length
  compilations_eq : cache.compilations = cache.size + failures answers
  nodup_keys : cache.keys.Nodup

theorem accounts_empty : Accounts {} [] := ⟨rfl, rfl, List.nodup_nil⟩

theorem Accounts.serve (haccounts : cache.Accounts earlier) (asked : Request) :
    (cache.serve asked).2.Accounts
      (earlier ++ [(asked.key, (cache.serve asked).1.outcome)]) := by
  obtain ⟨hsum, hcompilations, hnodup⟩ := haccounts
  have hlength (outcome : Except Error Program) :
      (earlier ++ [(asked.key, outcome)]).length = cache.hits + cache.compilations + 1 := by
    rw [hsum, List.length_append, List.length_singleton]
  have hfailures (outcome : Except Error Program) :
      failures (earlier ++ [(asked.key, outcome)]) =
        failures earlier + failures [(asked.key, outcome)] := List.countP_append
  rcases cache.serve_cases asked with ⟨program, hfind, hserve⟩ | ⟨program, hfind, _, hserve⟩ |
    ⟨error, _, _, hserve⟩
  · rw [hserve]
    refine ⟨?_, ?_, hnodup⟩
    · rw [hlength]
      exact Nat.add_right_comm _ _ _
    · rw [hfailures]
      exact hcompilations
  · rw [hserve]
    refine ⟨?_, ?_, ?_⟩
    · rw [hlength]
      rfl
    · rw [hfailures]
      change cache.compilations + 1 = cache.size + 1 + (failures earlier + 0)
      omega
    · -- The compilation was begun because nothing was stored under the key.
      refine List.nodup_cons.mpr ⟨fun hkey => ?_, hnodup⟩
      obtain ⟨stored, hstored⟩ := mem_keys_iff.mp hkey
      cases hfind.symm.trans hstored
  · rw [hserve]
    refine ⟨?_, ?_, hnodup⟩
    · rw [hlength]
      rfl
    · rw [hfailures]
      change cache.compilations + 1 = cache.size + (failures earlier + 1)
      omega

theorem Accounts.afterRequests (haccounts : cache.Accounts earlier) (requests : List Request) :
    (cache.afterRequests requests).Accounts (earlier ++ cache.answers requests) := by
  induction requests generalizing cache earlier with
  | nil =>
      rw [answers, List.append_nil]
      exact haccounts
  | cons asked rest ih =>
      rw [answers, List.append_cons]
      exact ih (haccounts.serve asked)

theorem length_answers (cache : Cache) (requests : List Request) :
    (cache.answers requests).length = requests.length := by
  induction requests generalizing cache with
  | nil => rfl
  | cons asked rest ih => exact congrArg Nat.succ (ih _)

/-- A cache that was empty at first holds programs for the keys that it has answered with one. -/
theorem mem_granted_answers_iff :
    key ∈ granted (answers {} requests) ↔
      ∃ program, (afterRequests {} requests).find? key = some program := by
  rw [mem_granted_iff]
  refine exists_congr fun program => ?_
  have hempty : find? {} key ≠ some program := by
    intro hstored
    cases hstored
  rw [find?_afterRequests_eq_some_iff, or_iff_right hempty]

/-- Whatever is done with a cache, starting from an empty one, its hits and compilations are as many
as the requests, its compilations as many as its programs and the requests that have failed, and its
programs as many as the keys that have been answered with one. A request is then a hit if its key
has been answered with a program before, and a miss otherwise; and an operation does to the cache
what the request does that it makes, or nothing if it makes none. -/
theorem counts_afterOperations (operations : List Operation) :
    let requests := operations.filterMap Operation.request?
    let answered := answers {} requests
    let cache := afterOperations {} operations
    cache.hits + cache.compilations = requests.length ∧
      cache.compilations = cache.size + failures answered ∧
      cache.size = (granted answered).dedup.length ∧
      (∀ asked, cache.IsHit asked ↔ asked.key ∈ granted answered) ∧
      (∀ asked, cache.IsMiss asked ↔ asked.key ∉ granted answered) ∧
      ∀ operation : Operation, operation.after cache =
        match operation.request? with
        | some asked => (cache.serve asked).2
        | none => cache := by
  intro requests answered cache
  have hcache : cache = afterRequests {} requests := afterOperations_eq {} operations
  obtain ⟨hsum, hcompilations, hnodup⟩ := hcache ▸ accounts_empty.afterRequests requests
  have hgranted (key : String) :
      key ∈ granted answered ↔ ∃ program, cache.find? key = some program := by
    rw [mem_granted_answers_iff, hcache]
  have hhit (asked : Request) : cache.IsHit asked ↔ asked.key ∈ granted answered :=
    isHit_iff.trans (hgranted asked.key).symm
  refine ⟨hsum.trans (length_answers {} requests), hcompilations, ?_, hhit, fun asked =>
    isMiss_iff.trans (not_congr (hhit asked)), fun operation => operation.after_eq_serve cache⟩
  -- No key is stored twice, so that the programs are as many as the keys that have them.
  have hperm : cache.keys.Perm (granted answered).dedup := by
    refine (List.perm_ext_iff_of_nodup hnodup (List.nodup_dedup _)).mpr fun key => ?_
    rw [List.mem_dedup, hgranted, mem_keys_iff]
  calc cache.size = cache.keys.length := (List.length_map Prod.fst).symm
    _ = (granted answered).dedup.length := hperm.length_eq

end Cache

end Formula
