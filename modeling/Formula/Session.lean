import Formula.Engine

/-!
# Sessions

In a session, caches and engines have names, and several engines may work with one cache. A request
names what it is about; its reply comes with what was reported while it was answered. A request
about a name that nothing has is not answered. A name can be given anew: an engine that works with
a cache keeps it when the name of the cache moves on.
-/

namespace Formula

/-- Named engines and caches. Caches are told apart by their place in the list. -/
structure Session where
  caches : List Cache := []
  /-- The names of caches, the latest first. -/
  cacheNames : List (String × Nat) := []
  /-- The engines and the places of the caches that they work with, the latest first. -/
  engines : List (String × Engine × Nat) := []

namespace Session

/-- The cache that a request is about, named by itself or by an engine that works with it. -/
inductive Target where
  | cache (name : String)
  | engine (name : String)
deriving DecidableEq, Repr

/-- Where a new engine has its cache from. -/
inductive Origin where
  | fresh
  | shared (target : Target)
deriving DecidableEq, Repr

/-- What can be asked of a session. -/
inductive Request where
  | newCache (name : String)
  | newEngine (name : String) (engine : Engine) (origin : Origin)
  | evaluate (engine : String) (text : String) (bindings : Bindings)
  | compile (engine : String) (text : String)
  | convert (engine : String) (text : String)
  | contains (target : Target) (key : String)
  | find (target : Target) (key : String)
  /-- Whether the same is stored under two keys. -/
  | same (target : Target) (first second : String)
  /-- The program under a key, or else that of a text, to be stored under the key. -/
  | request (target : Target) (key : String) (source : String)
  /-- Nothing but whether the cache exists. -/
  | look (target : Target)
  | dropEngine (name : String)

inductive Reply where
  | done (existed : Bool)
  | engine (engine : Engine)
  | value (outcome : Except Error Value)
  | program (outcome : Except Error Program)
  | text (outcome : Except Error String)
  | contains (found : Bool)
  | found (program : Option Program)
  | same (equal : Bool)

def place? (session : Session) : Target → Option Nat
  | .cache name => session.cacheNames.lookup name
  | .engine name => (session.engines.lookup name).map Prod.snd

def cache? (session : Session) (target : Target) : Option Cache := do
  session.caches[← session.place? target]?

def replaceCache (session : Session) (place : Nat) (cache : Cache) : Session :=
  { session with caches := session.caches.set place cache }

def addCache (session : Session) : Session :=
  { session with caches := session.caches ++ [{}] }

def nameCache (session : Session) (name : String) (place : Nat) : Session :=
  { session with cacheNames := (name, place) :: session.cacheNames }

def nameEngine (session : Session) (name : String) (engine : Engine) (place : Nat) : Session :=
  { session with engines := (name, engine, place) :: session.engines }

/-- Let a computation change the cache at some place. -/
def change {α : Type} (session : Session) (place : Nat) (toReply : Except Error α → Reply)
    (action : Cache → Traced α × Cache) : Option (Reply × List Event × Session) := do
  let (traced, cache) := action (← session.caches[place]?)
  return (toReply traced.outcome, traced.events, session.replaceCache place cache)

/-- The reply to a request, what was reported on the way, and the session afterwards. -/
def answer (session : Session) : Request → Option (Reply × List Event × Session)
  | .newCache name =>
      some (.done true, [], (session.nameCache name session.caches.length).addCache)
  | .newEngine name engine .fresh =>
      some (.engine engine, [], (session.nameEngine name engine session.caches.length).addCache)
  | .newEngine name engine (.shared target) => do
      return (.engine engine, [], session.nameEngine name engine (← session.place? target))
  | .evaluate name text bindings => do
      let (engine, place) ← session.engines.lookup name
      session.change place .value fun cache => engine.evaluate cache text bindings
  | .compile name text => do
      let (engine, place) ← session.engines.lookup name
      session.change place .program fun cache => engine.compile cache text
  | .convert name text => do
      let _ ← session.engines.lookup name
      let converted := Engine.convert text
      return (.text converted.outcome, converted.events, session)
  | .contains target key => do
      return (.contains ((← session.cache? target).contains key), [], session)
  | .find target key => do
      return (.found ((← session.cache? target).find? key), [], session)
  | .same target first second => do
      let cache ← session.cache? target
      return (.same (cache.find? first == cache.find? second), [], session)
  | .request target key source => do
      let place ← session.place? target
      session.change place .program fun cache => cache.request key fun _ => Program.compile source
  | .look target => do
      let _ ← session.cache? target
      return (.done true, [], session)
  | .dropEngine name =>
      let kept := session.engines.filter fun entry => entry.1 ≠ name
      some (.done (session.engines.lookup name).isSome, [], { session with engines := kept })

end Session

end Formula
