import Formula.Proofs.Accounting

/-!
# Calls in any order

Engines that share a cache and treat braces alike agree on what the program of a text is. Which of
several requests for a key compiles it depends on their order, and so does what the cache holds
meanwhile. The answers do not, and neither does the outcome of the whole run: the cache ends with
the programs of the keys that have one, and its counts follow from the number of requests and of
those that fail.
-/

namespace Formula

namespace Cache

variable {made : String → Except Error Program} {cache : Cache} {asked : Request}
  {requests others : List Request} {key : String} {program : Program}

/-! ## Compilations that agree with each other -/

/-- The compilation of a request comes to what a function says about the key. -/
def Request.Makes (made : String → Except Error Program) (asked : Request) : Prop :=
  (asked.compile ()).outcome = made asked.key

/-- The programs of a cache are those that a function gives to their keys. -/
def Follows (made : String → Except Error Program) (cache : Cache) : Prop :=
  ∀ key program, cache.find? key = some program → made key = .ok program

theorem follows_empty : Follows made {} := by
  intro key program hstored
  cases hstored

theorem Follows.outcome_serve (hfollows : cache.Follows made) (hmakes : asked.Makes made) :
    (cache.serve asked).1.outcome = made asked.key := by
  cases hfind : cache.find? asked.key with
  | some program => rw [outcome_serve_of_found hfind, hfollows _ _ hfind]
  | none => rw [outcome_serve_of_absent hfind, hmakes]

theorem Follows.serve (hfollows : cache.Follows made) (hmakes : asked.Makes made) :
    (cache.serve asked).2.Follows made := by
  intro key program hstored
  rcases find?_serve_eq_some_iff.mp hstored with hbefore | ⟨rfl, hanswer⟩
  · exact hfollows key program hbefore
  · rw [← hfollows.outcome_serve hmakes, hanswer]

/-- Requests whose compilations agree with the cache are answered as the compilations say, each by
itself. -/
theorem Follows.answers_eq (hfollows : cache.Follows made)
    (hmakes : ∀ asked ∈ requests, asked.Makes made) :
    cache.answers requests = requests.map fun asked => (asked.key, made asked.key) := by
  induction requests generalizing cache with
  | nil => rfl
  | cons asked rest ih =>
      obtain ⟨hfirst, hrest⟩ := List.forall_mem_cons.mp hmakes
      rw [answers, List.map_cons, hfollows.outcome_serve hfirst, ih (hfollows.serve hfirst) hrest]

/-! ## The cache in the end -/

/-- The keys that are asked for and have a program, each as often as it is asked for. -/
def compilable (made : String → Except Error Program) (requests : List Request) : List String :=
  (requests.map Request.key).filter fun key => (made key).isOk

theorem find?_afterRequests_iff (hmakes : ∀ asked ∈ requests, asked.Makes made) :
    (afterRequests {} requests).find? key = some program ↔
      made key = .ok program ∧ ∃ asked ∈ requests, asked.key = key := by
  have hempty : find? {} key ≠ some program := by
    intro hstored
    cases hstored
  rw [find?_afterRequests_eq_some_iff, or_iff_right hempty, follows_empty.answers_eq hmakes]
  simp only [List.mem_map, Prod.mk.injEq]
  constructor
  · rintro ⟨asked, hasked, rfl, hprogram⟩
    exact ⟨hprogram, asked, hasked, rfl⟩
  · rintro ⟨hprogram, asked, hasked, rfl⟩
    exact ⟨asked, hasked, rfl, hprogram⟩

theorem mem_keys_afterRequests_iff (hmakes : ∀ asked ∈ requests, asked.Makes made) :
    key ∈ (afterRequests {} requests).keys ↔ key ∈ compilable made requests := by
  simp only [mem_keys_iff, find?_afterRequests_iff hmakes, compilable, List.mem_filter,
    List.mem_map]
  constructor
  · rintro ⟨program, hprogram, hasked⟩
    exact ⟨hasked, by rw [hprogram]; rfl⟩
  · rintro ⟨hasked, hok⟩
    cases hprogram : made key with
    | ok program => exact ⟨program, rfl, hasked⟩
    | error error => rw [hprogram] at hok; cases hok

/-- A cache that was empty at first ends with one program for each key that has one. -/
theorem size_afterRequests (hmakes : ∀ asked ∈ requests, asked.Makes made) :
    (afterRequests {} requests).size = (compilable made requests).dedup.length := by
  have hnodup := (accounts_empty.afterRequests requests).nodup_keys
  have hperm : (afterRequests {} requests).keys.Perm (compilable made requests).dedup := by
    refine (List.perm_ext_iff_of_nodup hnodup (List.nodup_dedup _)).mpr fun key => ?_
    rw [List.mem_dedup, mem_keys_afterRequests_iff hmakes]
  calc (afterRequests {} requests).size = (afterRequests {} requests).keys.length :=
        (List.length_map Prod.fst).symm
    _ = (compilable made requests).dedup.length := hperm.length_eq

theorem hits_add_compilations_afterRequests (requests : List Request) :
    (afterRequests {} requests).hits + (afterRequests {} requests).compilations =
      requests.length := by
  have haccounts := accounts_empty.afterRequests requests
  rw [haccounts.hits_add_compilations, List.nil_append, length_answers]

theorem compilations_afterRequests (hmakes : ∀ asked ∈ requests, asked.Makes made) :
    (afterRequests {} requests).compilations =
      (compilable made requests).dedup.length +
        requests.countP fun asked => !(made asked.key).isOk := by
  have haccounts := accounts_empty.afterRequests requests
  rw [haccounts.compilations_eq, size_afterRequests hmakes, List.nil_append,
    follows_empty.answers_eq hmakes, failures, List.countP_map]
  rfl

/-- Requests whose compilations agree with each other leave the same programs and the same counts in
every order. -/
theorem afterRequests_perm (hperm : requests.Perm others)
    (hmakes : ∀ asked ∈ requests, asked.Makes made) :
    (∀ key, (afterRequests {} requests).find? key = (afterRequests {} others).find? key) ∧
      (afterRequests {} requests).size = (afterRequests {} others).size ∧
      (afterRequests {} requests).hits = (afterRequests {} others).hits ∧
      (afterRequests {} requests).compilations = (afterRequests {} others).compilations := by
  have hmakes' : ∀ asked ∈ others, asked.Makes made := fun asked hasked =>
    hmakes asked (hperm.mem_iff.mpr hasked)
  have hcompilable : (compilable made requests).dedup.length =
      (compilable made others).dedup.length :=
    ((hperm.map _).filter _).dedup.length_eq
  have hcompilations : (afterRequests {} requests).compilations =
      (afterRequests {} others).compilations := by
    rw [compilations_afterRequests hmakes, compilations_afterRequests hmakes', hcompilable,
      hperm.countP_eq]
  refine ⟨fun key => Option.ext fun program => ?_, ?_, ?_, hcompilations⟩
  · rw [find?_afterRequests_iff hmakes, find?_afterRequests_iff hmakes']
    simp only [hperm.mem_iff]
  · rw [size_afterRequests hmakes, size_afterRequests hmakes', hcompilable]
  · have hsum := hits_add_compilations_afterRequests requests
    have hsum' := hits_add_compilations_afterRequests others
    rw [hperm.length_eq] at hsum
    omega

end Cache

/-! ## Calls and their answers -/

/-- What a call is answered. -/
inductive Answer where
  | value (outcome : Except Error Value)
  | program (outcome : Except Error Program)
  | text (outcome : Except Error String)
  | found (program : Option Program)
  | contained (isStored : Bool)
  | counted (size hits compilations : Nat)

namespace Call

def answer (engine : Engine) (cache : Cache) : Call → Answer
  | evaluate text bindings => .value (engine.evaluate cache text bindings).1.outcome
  | compile text => .program (engine.compile cache text).1.outcome
  | convert text => .text (Engine.convert text).outcome
  | find key => .found (cache.find? key)
  | contains key => .contained (cache.contains key)
  | counts => .counted cache.size cache.hits cache.compilations

/-- Whether a call asks about the cache itself. -/
def inspects : Call → Bool
  | evaluate _ _ | compile _ | convert _ => false
  | find _ | contains _ | counts => true

/-- The request that a call makes to the cache of its engine, if it makes one. -/
def request? (entry : Engine × Call) : Option Cache.Request :=
  Operation.request? (.through entry.1 entry.2)

end Call

/-- The program of a text for all engines that treat braces in one way. -/
def programOf (unwrapBraces : Bool) (text : String) : Except Error Program :=
  Program.ofText (Engine.source ⟨unwrapBraces, false⟩ text)

theorem Call.makes_of_request? {entry : Engine × Call} {asked : Cache.Request}
    (hasked : Call.request? entry = some asked) :
    asked.Makes (programOf entry.1.unwrapBraces) := by
  unfold Call.request? Operation.request? at hasked
  dsimp only at hasked
  split at hasked
  next =>
    obtain ⟨text, _, rfl⟩ := Option.map_eq_some_iff.mp hasked
    rfl
  next => cases hasked

/-- A cache that follows the programs of texts does not show in the program that an engine gives. -/
theorem Cache.Follows.outcome_compile {engine : Engine} {cache : Cache}
    (hfollows : cache.Follows (programOf engine.unwrapBraces)) (text : String) :
    (engine.compile cache text).1.outcome = programOf engine.unwrapBraces text := by
  rw [Engine.outcome_compile]
  split
  next program hstored =>
    unfold Engine.stored? at hstored
    split at hstored
    · exact (hfollows text program hstored).symm
    · cases hstored
  next => rfl

theorem Cache.Follows.after {entry : Engine × Call} {cache : Cache}
    (hfollows : cache.Follows (programOf entry.1.unwrapBraces)) :
    (entry.2.after entry.1 cache).Follows (programOf entry.1.unwrapBraces) := by
  have hafter : entry.2.after entry.1 cache = _ :=
    Operation.after_eq_serve cache (.through entry.1 entry.2)
  rw [hafter]
  split
  next asked hasked => exact hfollows.serve (Call.makes_of_request? hasked)
  next => exact hfollows

namespace Call

/-- What a call is answered when nothing has been stored: the answer of a new engine that treats
braces in the same way and does not use a cache. -/
def answerAlone (entry : Engine × Call) : Answer :=
  entry.2.answer ⟨entry.1.unwrapBraces, false⟩ {}

theorem answer_eq_answerAlone {entry : Engine × Call} {cache : Cache}
    (hfollows : cache.Follows (programOf entry.1.unwrapBraces))
    (hinspects : entry.2.inspects = false) :
    entry.2.answer entry.1 cache = answerAlone entry := by
  obtain ⟨engine, call⟩ := entry
  have hcompile (text : String) : (engine.compile cache text).1.outcome =
      (Engine.compile ⟨engine.unwrapBraces, false⟩ {} text).1.outcome :=
    hfollows.outcome_compile text
  cases call with
  | evaluate text bindings =>
      exact congrArg Answer.value (Engine.outcome_evaluate_congr (hcompile text) bindings)
  | compile text => exact congrArg Answer.program (hcompile text)
  | convert text => rfl
  | find _ | contains _ | counts => cases hinspects

end Call

namespace Cache

/-- The answers to some calls, made one after another of engines that share the cache. -/
def replies (cache : Cache) : List (Engine × Call) → List Answer
  | [] => []
  | entry :: rest => entry.2.answer entry.1 cache :: (entry.2.after entry.1 cache).replies rest

theorem afterAll_eq (cache : Cache) (calls : List (Engine × Call)) :
    cache.afterAll calls = cache.afterRequests (calls.filterMap Call.request?) := by
  have hoperations : cache.afterAll calls =
      cache.afterOperations (calls.map fun entry => .through entry.1 entry.2) := by
    rw [afterOperations, List.foldl_map]
    rfl
  rw [hoperations, afterOperations_eq, List.filterMap_map]
  rfl

variable {cache : Cache} {calls others : List (Engine × Call)} {unwrapBraces : Bool}

theorem Follows.replies_eq (hfollows : cache.Follows (programOf unwrapBraces))
    (hbraces : ∀ entry ∈ calls, entry.1.unwrapBraces = unwrapBraces)
    (hinspects : ∀ entry ∈ calls, entry.2.inspects = false) :
    cache.replies calls = calls.map Call.answerAlone := by
  induction calls generalizing cache with
  | nil => rfl
  | cons entry rest ih =>
      obtain ⟨rfl, hrest⟩ := List.forall_mem_cons.mp hbraces
      obtain ⟨hfirst, hlater⟩ := List.forall_mem_cons.mp hinspects
      rw [replies, List.map_cons, Call.answer_eq_answerAlone hfollows hfirst,
        ih hfollows.after hrest hlater]

/-- Engines that share a cache, empty at first, and treat braces alike may be asked for values and
programs in any order: to each call belongs an answer that it is given in every order, and the cache
ends with the same programs under the same keys and with the same counts. -/
theorem replies_perm (hperm : calls.Perm others)
    (hbraces : ∀ entry ∈ calls, entry.1.unwrapBraces = unwrapBraces)
    (hinspects : ∀ entry ∈ calls, entry.2.inspects = false) :
    (∃ answer : Engine × Call → Answer,
      replies {} calls = calls.map answer ∧ replies {} others = others.map answer) ∧
    (∀ key, (afterAll {} calls).find? key = (afterAll {} others).find? key) ∧
    (afterAll {} calls).size = (afterAll {} others).size ∧
    (afterAll {} calls).hits = (afterAll {} others).hits ∧
    (afterAll {} calls).compilations = (afterAll {} others).compilations := by
  have hmakes : ∀ asked ∈ calls.filterMap Call.request?, asked.Makes (programOf unwrapBraces) := by
    intro asked hasked
    obtain ⟨entry, hentry, hrequest⟩ := List.mem_filterMap.mp hasked
    rw [← hbraces entry hentry]
    exact Call.makes_of_request? hrequest
  refine ⟨⟨Call.answerAlone, follows_empty.replies_eq hbraces hinspects, ?_⟩, ?_⟩
  · refine follows_empty.replies_eq (fun entry hentry => hbraces entry ?_) fun entry hentry =>
      hinspects entry ?_
    · exact hperm.mem_iff.mpr hentry
    · exact hperm.mem_iff.mpr hentry
  · rw [afterAll_eq, afterAll_eq]
    exact afterRequests_perm (hperm.filterMap _) hmakes

/-- Whether a text is evaluated before or after the engine next to it has compiled it, and before or
after a text that has no program, the cache ends with one hit and two compilations. -/
theorem replies_perm_swapped :
    let evaluation : Engine × Call := ({}, .evaluate "2+x" Bindings.empty)
    let compilation : Engine × Call := ({}, .compile "2+x")
    let failure : Engine × Call := ({}, .compile "(2")
    (afterAll {} [evaluation, compilation, failure]).hits = 1 ∧
      (afterAll {} [failure, compilation, evaluation]).hits = 1 ∧
      (afterAll {} [failure, compilation, evaluation]).compilations = 2 := by
  intro evaluation compilation failure
  have hperm : [evaluation, compilation, failure].Perm [failure, compilation, evaluation] :=
    (List.reverse_perm _).symm
  have hbraces : ∀ entry ∈ [evaluation, compilation, failure], entry.1.unwrapBraces = true := by
    decide
  obtain ⟨_, _, _, hhits, hcompilations⟩ := replies_perm hperm hbraces (by decide)
  have hcounts : (afterAll {} [evaluation, compilation, failure]).hits = 1 ∧
      (afterAll {} [evaluation, compilation, failure]).compilations = 2 := by decide +kernel
  exact ⟨hcounts.1, hhits ▸ hcounts.1, hcompilations ▸ hcounts.2⟩

end Cache

end Formula
