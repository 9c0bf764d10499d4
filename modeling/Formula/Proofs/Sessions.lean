import Formula.Proofs.Log
import Formula.Proofs.Reordering

/-!
# Sessions as operations on caches

Most requests of a session come to operations on one cache. They are answered as the operations are,
they report what the operations report, and they leave the other caches alone; all other requests
leave every cache alone and report nothing. In the end, each cache of a session is what the
operations on it have made of it, so that all that is known of runs of operations is known of the
caches of sessions. The counts of each cache, in particular, agree with the events that were
reported about it.
-/

namespace Formula

/-! ## Rows of operations -/

/-- What an operation is answered. -/
def Operation.answer (cache : Cache) : Operation → Answer
  | direct asked => .program (cache.serve asked).1.outcome
  | through engine call => call.answer engine cache

namespace Cache

/-- The answers to some operations, one after another. -/
def answersTo (cache : Cache) : List Operation → List Answer
  | [] => []
  | operation :: rest => operation.answer cache :: (operation.after cache).answersTo rest

theorem log_singleton (cache : Cache) (operation : Operation) :
    cache.log [operation] = operation.events cache := List.append_nil _

theorem log_append (cache : Cache) (operations others : List Operation) :
    cache.log (operations ++ others) =
      cache.log operations ++ (cache.afterOperations operations).log others := by
  induction operations generalizing cache with
  | nil => rfl
  | cons operation rest ih => exact (congrArg _ (ih _)).trans (List.append_assoc _ _ _).symm

end Cache

namespace Session

/-! ## Requests and their operations -/

/-- The operation of a request to a named engine, and the place of the cache that it is made on. -/
def callOf (session : Session) (name : String) (call : Call) : Option (Nat × List Operation) :=
  (session.engines.lookup name).map fun found => (found.2, [.through found.1 call])

/-- The operations of a request about a cache itself. No settings of engines have a part in them. -/
def inspections (session : Session) (target : Target) (calls : List Call) :
    Option (Nat × List Operation) :=
  (session.place? target).map fun place => (place, calls.map (.through {}))

/-- The operations that a request comes to, and the place of the cache that they are made on. There
are none if a name is unknown, given or given up. -/
def operations? (session : Session) : Request → Option (Nat × List Operation)
  | .newCache _ | .newEngine _ _ _ | .dropEngine _ => none
  | .evaluate name text bindings => session.callOf name (.evaluate text bindings)
  | .compile name text => session.callOf name (.compile text)
  | .convert name text => session.callOf name (.convert text)
  | .contains target key => session.inspections target [.contains key]
  | .find target key => session.inspections target [.find key]
  | .same target first second => session.inspections target [.find first, .find second]
  | .look target => session.inspections target [.counts]
  | .request target key source =>
      (session.place? target).map fun place =>
        (place, [.direct ⟨key, fun _ => Program.compile source⟩])

/-- The reply that is made of the answers to the operations of a request. -/
def Reply.ofAnswers? : List Answer → Option Reply
  | [.value outcome] => some (.value outcome)
  | [.program outcome] => some (.program outcome)
  | [.text outcome] => some (.text outcome)
  | [.contained isStored] => some (.contains isStored)
  | [.found stored] => some (.found stored)
  | [.found stored, .found other] => some (.same (stored == other))
  | [.counted _ _ _] => some (.done true)
  | _ => none

/-! ## One request -/

variable {session : Session} {request : Request} {place : Nat} {operations : List Operation}
  {cache : Cache}

theorem change_of_cache (hcache : session.caches[place]? = some cache) {α : Type}
    (toReply : Except Error α → Reply) (action : Cache → Traced α × Cache) :
    session.change place toReply action =
      some (toReply (action cache).1.outcome, (action cache).1.events,
        session.replaceCache place (action cache).2) := by
  rw [change, hcache]
  rfl

theorem exists_engine_of_callOf {name : String} {call : Call}
    (hcall : session.callOf name call = some (place, operations)) :
    ∃ engine, session.engines.lookup name = some (engine, place) ∧
      operations = [.through engine call] := by
  obtain ⟨⟨engine, _⟩, hengine, heq⟩ := Option.map_eq_some_iff.mp hcall
  cases heq
  exact ⟨engine, hengine, rfl⟩

theorem place?_of_inspections {target : Target} {calls : List Call}
    (hinspections : session.inspections target calls = some (place, operations)) :
    session.place? target = some place ∧ operations = calls.map (.through {}) := by
  obtain ⟨_, hplace, heq⟩ := Option.map_eq_some_iff.mp hinspections
  cases heq
  exact ⟨hplace, rfl⟩

/-- The operations of a request are made on the cache of some target, and the compilations that come
with them are those of texts. -/
theorem cases_of_operations?
    (hoperations : session.operations? request = some (place, operations)) :
    (∃ target, session.place? target = some place) ∧
      ∀ asked, .direct asked ∈ operations →
        ∃ source, asked.compile = fun _ => Program.compile source := by
  cases request with
  | newCache _ | newEngine _ _ _ | dropEngine _ => cases hoperations
  | evaluate name text bindings | compile name text | convert name text =>
      obtain ⟨engine, hengine, rfl⟩ := exists_engine_of_callOf hoperations
      refine ⟨⟨.engine name, ?_⟩, by simp⟩
      rw [place?, hengine]
      rfl
  | contains target key | find target key | same target first second | look target =>
      obtain ⟨hplace, rfl⟩ := place?_of_inspections hoperations
      exact ⟨⟨target, hplace⟩, by simp⟩
  | request target key source =>
      obtain ⟨_, hplace, heq⟩ := Option.map_eq_some_iff.mp hoperations
      cases heq
      refine ⟨⟨target, hplace⟩, fun asked hasked => ⟨source, ?_⟩⟩
      rw [Operation.direct.inj (List.mem_singleton.mp hasked)]

theorem cache?_of_place {target : Target} (hplace : session.place? target = some place)
    (hcache : session.caches[place]? = some cache) : session.cache? target = some cache := by
  rw [cache?, hplace]
  exact hcache

/-- A request is answered as its operations are, it reports what they report, and it leaves what
they make of the cache. -/
theorem answer_of_operations
    (hoperations : session.operations? request = some (place, operations))
    (hcache : session.caches[place]? = some cache) :
    ∃ reply, Reply.ofAnswers? (cache.answersTo operations) = some reply ∧
      session.answer request = some (reply, cache.log operations,
        session.replaceCache place (cache.afterOperations operations)) := by
  have hself : session.replaceCache place cache = session := replaceCache_self hcache
  cases request with
  | newCache _ | newEngine _ _ _ | dropEngine _ => cases hoperations
  | evaluate name text bindings =>
      obtain ⟨engine, hengine, rfl⟩ := exists_engine_of_callOf hoperations
      refine ⟨_, rfl, ?_⟩
      rw [answer_evaluate, hengine, Option.bind_some, change_of_cache hcache,
        Cache.log_singleton]
      rfl
  | compile name text =>
      obtain ⟨engine, hengine, rfl⟩ := exists_engine_of_callOf hoperations
      refine ⟨_, rfl, ?_⟩
      rw [answer_compile, hengine, Option.bind_some, change_of_cache hcache,
        Cache.log_singleton]
      rfl
  | convert name text =>
      obtain ⟨engine, hengine, rfl⟩ := exists_engine_of_callOf hoperations
      refine ⟨_, rfl, ?_⟩
      change (session.engines.lookup name).bind _ = some (_, _, session.replaceCache place cache)
      rw [hengine, hself, Cache.log_singleton]
      rfl
  | contains target key | find target key | same target first second | look target =>
      obtain ⟨hplace, rfl⟩ := place?_of_inspections hoperations
      refine ⟨_, rfl, ?_⟩
      change (session.cache? target).bind _ = some (_, _, session.replaceCache place cache)
      rw [cache?_of_place hplace hcache, hself]
      rfl
  | request target key source =>
      obtain ⟨_, hplace, heq⟩ := Option.map_eq_some_iff.mp hoperations
      cases heq
      refine ⟨_, rfl, ?_⟩
      change (session.place? target).bind _ = _
      rw [hplace, Option.bind_some, change_of_cache hcache, Cache.log_singleton]
      rfl

/-! ## Names and places -/

/-- Every name stands for a cache, or for an engine with a cache, that the session has. -/
structure Placed (session : Session) : Prop where
  cacheNames : ∀ entry ∈ session.cacheNames, entry.2 < session.caches.length
  engines : ∀ entry ∈ session.engines, entry.2.2 < session.caches.length

theorem placed_empty : Placed {} where
  cacheNames := by simp
  engines := by simp

theorem Placed.place?_lt (hplaced : session.Placed) {target : Target}
    (hplace : session.place? target = some place) : place < session.caches.length := by
  cases target with
  | cache name => exact hplaced.cacheNames _ (mem_of_lookup hplace)
  | engine name =>
      obtain ⟨⟨engine, _⟩, hengine, rfl⟩ := Option.map_eq_some_iff.mp hplace
      exact hplaced.engines _ (mem_of_lookup hengine)

/-- The operations of a request are made on a cache that the session has. -/
theorem Placed.operations?_lt (hplaced : session.Placed)
    (hoperations : session.operations? request = some (place, operations)) :
    place < session.caches.length := by
  obtain ⟨⟨target, hplace⟩, -⟩ := cases_of_operations? hoperations
  exact hplaced.place?_lt hplace

/-! ## Requests without operations -/

section naming

variable (hplaced : session.Placed)
include hplaced

theorem Placed.addCache : session.addCache.Placed := by
  have hlength : session.addCache.caches.length = session.caches.length + 1 := List.length_append
  refine ⟨fun entry hentry => ?_, fun entry hentry => ?_⟩ <;> rw [hlength]
  · exact Nat.lt_succ_of_lt (hplaced.cacheNames entry hentry)
  · exact Nat.lt_succ_of_lt (hplaced.engines entry hentry)

theorem Placed.nameCache (hplace : place < session.caches.length) (name : String) :
    (session.nameCache name place).Placed :=
  ⟨List.forall_mem_cons.mpr ⟨hplace, hplaced.cacheNames⟩, hplaced.engines⟩

theorem Placed.nameEngine (hplace : place < session.caches.length) (name : String)
    (engine : Engine) : (session.nameEngine name engine place).Placed :=
  ⟨hplaced.cacheNames, List.forall_mem_cons.mpr ⟨hplace, hplaced.engines⟩⟩

theorem Placed.replaceCache (place : Nat) (cache : Cache) :
    (session.replaceCache place cache).Placed := by
  have hlength : (session.replaceCache place cache).caches.length = session.caches.length :=
    List.length_set
  refine ⟨fun entry hentry => ?_, fun entry hentry => ?_⟩ <;> rw [hlength]
  · exact hplaced.cacheNames entry hentry
  · exact hplaced.engines entry hentry

end naming

/-- In the next session names have been given or given up. No cache has changed, but there may be a
new one at the end, which is empty. -/
structure Renamed (session next : Session) : Prop where
  caches : next.caches = session.caches ∨ next.caches = session.caches ++ [({} : Cache)]
  placed : session.Placed → next.Placed

/-- A request that comes to no operations gives or gives up a name, or it is not answered. -/
theorem answer_of_no_operations (hnone : session.operations? request = none) :
    session.answer request = none ∨
      ∃ reply next, session.answer request = some (reply, [], next) ∧ session.Renamed next := by
  have hlength : session.caches.length < session.addCache.caches.length := by
    simp [Session.addCache]
  cases request with
  | newCache name =>
      exact .inr ⟨_, _, rfl, .inr rfl, fun hplaced => hplaced.addCache.nameCache hlength name⟩
  | newEngine name engine origin =>
      cases origin with
      | fresh =>
          exact .inr ⟨_, _, rfl, .inr rfl, fun hplaced =>
            hplaced.addCache.nameEngine hlength name engine⟩
      | shared target =>
          change (session.place? target).bind _ = none ∨ ∃ reply next,
            (session.place? target).bind _ = some (reply, [], next) ∧ session.Renamed next
          cases hplace : session.place? target with
          | none => exact .inl rfl
          | some place =>
              exact .inr ⟨_, _, rfl, .inl rfl, fun hplaced =>
                hplaced.nameEngine (hplaced.place?_lt hplace) name engine⟩
  | dropEngine name =>
      refine .inr ⟨_, _, rfl, .inl rfl, fun hplaced => ⟨hplaced.cacheNames, fun entry hentry => ?_⟩⟩
      exact hplaced.engines entry (List.mem_filter.mp hentry).1
  | evaluate name text bindings | compile name text | convert name text =>
      have hlookup : session.engines.lookup name = none := Option.map_eq_none_iff.mp hnone
      refine .inl ?_
      change (session.engines.lookup name).bind _ = none
      rw [hlookup]
      rfl
  | contains target key | find target key | same target first second | look target =>
      have hplace : session.place? target = none := Option.map_eq_none_iff.mp hnone
      refine .inl ?_
      change (session.cache? target).bind _ = none
      rw [cache?, hplace]
      rfl
  | request target key source =>
      have hplace : session.place? target = none := Option.map_eq_none_iff.mp hnone
      refine .inl ?_
      change (session.place? target).bind _ = none
      rw [hplace]
      rfl

/-! ## The caches after a request -/

/-- The cache at a place, which is empty if there is none yet. -/
def cacheAt (session : Session) (place : Nat) : Cache := session.caches[place]?.getD {}

/-- The operations on the cache at a place that a request comes to. -/
def operationsOf (session : Session) (place : Nat) (request : Request) : List Operation :=
  match session.operations? request with
  | some (concerned, operations) => if concerned = place then operations else []
  | none => []

/-- What is reported about the cache at a place while a request is answered. -/
def eventsOf (session : Session) (place : Nat) (request : Request) : List Event :=
  match session.operations? request, session.answer request with
  | some (concerned, _), some (_, events, _) => if concerned = place then events else []
  | _, _ => []

theorem Renamed.cacheAt_eq {next : Session} (hrenamed : session.Renamed next) (place : Nat) :
    next.cacheAt place = session.cacheAt place := by
  unfold cacheAt
  rcases hrenamed.caches with hsame | hmore
  · rw [hsame]
  · rw [hmore, List.getElem?_append]
    split
    · rfl
    next hge =>
      rw [List.getElem?_eq_none (Nat.le_of_not_lt hge)]
      cases place - session.caches.length <;> rfl

theorem cacheAt_replaceCache (hplace : place < session.caches.length) (other : Nat) :
    (session.replaceCache place cache).cacheAt other =
      if place = other then cache else session.cacheAt other := by
  unfold cacheAt
  rw [replaceCache, List.getElem?_set, if_pos hplace]
  split <;> rfl

theorem caches_getElem?_of_lt (hplace : place < session.caches.length) :
    session.caches[place]? = some (session.cacheAt place) := by
  rw [cacheAt, List.getElem?_eq_getElem hplace, Option.getD_some]

/-- What a request does to the cache at a place, and what is reported about it: the operations that
the request comes to make all the difference. -/
theorem Placed.cacheAt_after (hplaced : session.Placed) (request : Request) (place : Nat) :
    (session.after request).Placed ∧
      (session.after request).cacheAt place =
        (session.cacheAt place).afterOperations (session.operationsOf place request) ∧
      session.eventsOf place request =
        (session.cacheAt place).log (session.operationsOf place request) := by
  unfold after operationsOf eventsOf
  cases hoperations : session.operations? request with
  | none =>
      rcases answer_of_no_operations hoperations with hanswer | ⟨reply, next, hanswer, hrenamed⟩
      · rw [hanswer]
        exact ⟨hplaced, rfl, rfl⟩
      · rw [hanswer]
        exact ⟨hrenamed.placed hplaced, hrenamed.cacheAt_eq place, rfl⟩
  | some asked =>
      obtain ⟨concerned, operations⟩ := asked
      have hlt := hplaced.operations?_lt hoperations
      obtain ⟨reply, -, hanswer⟩ :=
        answer_of_operations hoperations (caches_getElem?_of_lt hlt)
      rw [hanswer]
      refine ⟨hplaced.replaceCache _ _, ?_⟩
      dsimp only
      rw [cacheAt_replaceCache hlt]
      by_cases heq : concerned = place
      · subst heq
        simp
      · simp [heq, Cache.afterOperations, Cache.log]

/-! ## Whole sessions -/

/-- The session after some requests. -/
def afterAll (session : Session) (requests : List Request) : Session :=
  requests.foldl after session

/-- The operations on the cache at a place that some requests come to. -/
def operationsAt (place : Nat) (session : Session) : List Request → List Operation
  | [] => []
  | request :: rest =>
      session.operationsOf place request ++ (session.after request).operationsAt place rest

/-- What is reported about the cache at a place while some requests are answered. -/
def eventsAt (place : Nat) (session : Session) : List Request → List Event
  | [] => []
  | request :: rest => session.eventsOf place request ++ (session.after request).eventsAt place rest

/-- In the end, the cache at a place is what the operations on it have made of it, and what has been
reported about it is their log. -/
theorem Placed.cacheAt_afterAll (hplaced : session.Placed) (requests : List Request)
    (place : Nat) :
    (session.afterAll requests).cacheAt place =
        (session.cacheAt place).afterOperations (session.operationsAt place requests) ∧
      session.eventsAt place requests =
        (session.cacheAt place).log (session.operationsAt place requests) := by
  induction requests generalizing session with
  | nil => exact ⟨rfl, rfl⟩
  | cons request rest ih =>
      obtain ⟨hnext, hafter, hevents⟩ := hplaced.cacheAt_after request place
      obtain ⟨hcache, hlog⟩ := ih hnext
      constructor
      · rw [operationsAt, Cache.afterOperations, List.foldl_append]
        change ((session.after request).afterAll rest).cacheAt place = _
        rw [hcache, hafter]
        rfl
      · rw [operationsAt, eventsAt, Cache.log_append, hevents, hlog, hafter]

theorem exists_of_mem_operationsOf {operation : Operation}
    (hmem : operation ∈ session.operationsOf place request) :
    ∃ operations, session.operations? request = some (place, operations) ∧
      operation ∈ operations := by
  unfold operationsOf at hmem
  split at hmem
  next concerned operations hoperations =>
    split at hmem
    next heq => exact ⟨operations, heq ▸ hoperations, hmem⟩
    next => cases hmem
  next => cases hmem

/-- The compilations that come with the requests of a session report nothing but operands. -/
theorem onlyOperands_of_operationsAt {requests : List Request} {asked : Cache.Request}
    (hasked : .direct asked ∈ session.operationsAt place requests) :
    OnlyOperands (asked.compile ()).events := by
  induction requests generalizing session with
  | nil => cases hasked
  | cons request rest ih =>
      rcases List.mem_append.mp hasked with hfirst | hlater
      · obtain ⟨operations, hoperations, hmem⟩ := exists_of_mem_operationsOf hfirst
        obtain ⟨source, hcompile⟩ := (cases_of_operations? hoperations).2 asked hmem
        rw [hcompile]
        exact (Program.reportsOperands_compile source).onlyOperands
      · exact ih hlater

/-- In a session without caches at first, whatever is asked, the counts and the size of each cache
agree with what has been reported about it. -/
theorem logged_cacheAt (requests : List Request) (place : Nat) :
    ((afterAll {} requests).cacheAt place).Logged (eventsAt place {} requests) := by
  obtain ⟨hcache, hlog⟩ := placed_empty.cacheAt_afterAll requests place
  rw [hcache, hlog]
  exact Cache.logged_empty.afterOperations fun asked hasked => onlyOperands_of_operationsAt hasked

end Session

end Formula
