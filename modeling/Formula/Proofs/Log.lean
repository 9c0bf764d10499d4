import Formula.Proofs.Accounting
import Formula.Proofs.Noninterference
import Formula.Proofs.Reports

/-!
# The log of a cache

What is done with a cache is reported for a log. The log says the same as the counts of the cache:
each hit is reported once, each compilation that was begun is reported once when it has ended, and
each program that is stored was reported as compiled. The reports of one operation are those of its
request, or of the text that it compiles without one.
-/

namespace Formula

/-! ## Kinds of events -/

namespace Event

/-- The message of an event begins like this. -/
def beginsWith (beginning : String) (event : Event) : Bool :=
  beginning.toList.isPrefixOf event.message.toList

def isCacheHit : Event → Bool
  | cacheHit _ => true
  | _ => false

def isCompiled : Event → Bool
  | compiled _ _ => true
  | _ => false

def isCompilationFailed : Event → Bool
  | compilationFailed _ _ => true
  | _ => false

theorem beginsWith_cacheHit : beginsWith "formula cache hit: " = isCacheHit := by
  funext event
  unfold beginsWith message
  cases event <;> simp [List.isPrefixOf, isCacheHit, Text.quoted]

theorem beginsWith_compiled : beginsWith "compiled " = isCompiled := by
  funext event
  unfold beginsWith message
  cases event <;> simp [List.isPrefixOf, isCompiled, Text.quoted]

theorem beginsWith_compilationFailed : beginsWith "failed to compile " = isCompilationFailed := by
  funext event
  unfold beginsWith message
  cases event <;> simp [List.isPrefixOf, isCompilationFailed, Text.quoted]

end Event

/-- Nothing but operands is reported. -/
def OnlyOperands (events : List Event) : Prop := ∀ event ∈ events, ∃ text, event = .operand text

theorem OnlyOperands.countP_eq_zero {events : List Event} (honly : OnlyOperands events)
    {p : Event → Bool} (hoperand : ∀ text, p (.operand text) = false) : events.countP p = 0 := by
  rw [List.countP_eq_zero]
  intro event hevent
  obtain ⟨text, rfl⟩ := honly event hevent
  simp [hoperand]

theorem ReportsOperands.onlyOperands {text : List Char} {events : List Event}
    (hreports : ReportsOperands text events) : OnlyOperands events := by
  obtain ⟨runs, rfl, -, -⟩ := hreports
  intro event hevent
  obtain ⟨run, -, rfl⟩ := List.mem_map.mp hevent
  exact ⟨_, rfl⟩

/-- What is reported when a text is compiled for a key: its operands that are reached, and then how
the compilation has ended, with the number of tokens that are no parentheses or with the error that
is returned. -/
def ReportsCompilation (key source : String) (returned : Option Error) (events : List Event) :
    Prop :=
  ∃ operands, ReportsOperands source.toList operands ∧
    match Program.ofText source with
    | .ok _ => ∃ tokens, Token.tokenize source = .ok tokens ∧
        events = operands ++ [.compiled key (tokens.countP fun token => !token.isParenthesis)]
    | .error error => returned = some error ∧
        events = operands ++ [.compilationFailed key error]

/-! ## The events of operations -/

/-- The error that a computation ends with, if it fails. -/
def Traced.error? {α : Type} (computation : Traced α) : Option Error :=
  match computation.outcome with
  | .ok _ => none
  | .error error => some error

namespace Call

/-- What is reported during a call. -/
def events (engine : Engine) (cache : Cache) : Call → List Event
  | evaluate text bindings => (engine.evaluate cache text bindings).1.events
  | compile text => (engine.compile cache text).1.events
  | convert text => (Engine.convert text).events
  | find _ | contains _ | counts => []

/-- The error that a call returns, if it fails. -/
def error? (engine : Engine) (cache : Cache) : Call → Option Error
  | evaluate text bindings => (engine.evaluate cache text bindings).1.error?
  | compile text => (engine.compile cache text).1.error?
  | convert text => (Engine.convert text).error?
  | find _ | contains _ | counts => none

/-- The text that a call compiles if no cache is used. -/
def source? (engine : Engine) : Call → Option String
  | evaluate text _ => if text = "" then none else some (engine.source text)
  | compile text => some (engine.source text)
  | convert text => some text
  | find _ | contains _ | counts => none

end Call

namespace Operation

/-- What is reported during an operation. -/
def events (cache : Cache) : Operation → List Event
  | direct asked => (cache.serve asked).1.events
  | through engine call => call.events engine cache

/-- The error that an operation returns, if it fails. -/
def error? (cache : Cache) : Operation → Option Error
  | direct asked => (cache.serve asked).1.error?
  | through engine call => call.error? engine cache

/-- The text that an operation compiles without asking the cache, if it makes no request. -/
def source? : Operation → Option String
  | direct _ => none
  | through engine call => call.source? engine

end Operation

/-! ## Operations with and without requests -/

namespace Call

variable (engine : Engine) (cache : Cache)

theorem text?_eq_some_iff {call : Call} {text : String} :
    call.text? = some text ↔
      call = .compile text ∨ text ≠ "" ∧ ∃ bindings, call = .evaluate text bindings := by
  cases call with
  | evaluate given bindings =>
      by_cases hempty : given = ""
      · simp [text?, hempty, eq_comm]
      · constructor
        · intro htext
          obtain rfl : given = text := by simpa [text?, hempty] using htext
          exact .inr ⟨hempty, bindings, rfl⟩
        · rintro (hcompile | ⟨-, _, heq⟩)
          · cases hcompile
          · cases heq
            rw [text?, if_neg hempty]
  | _ => simp [text?]

variable {call : Call} {text : String}

theorem source?_of_text? (htext : call.text? = some text) :
    call.source? engine = some (engine.source text) := by
  rcases text?_eq_some_iff.mp htext with rfl | ⟨hne, bindings, rfl⟩
  · rfl
  · rw [source?, if_neg hne]

theorem events_of_text? (htext : call.text? = some text) :
    call.events engine cache = (engine.compile cache text).1.events := by
  rcases text?_eq_some_iff.mp htext with rfl | ⟨hne, bindings, rfl⟩
  · rfl
  · exact engine.events_evaluate cache hne bindings

/-- A call fails as the compilation of its text fails. -/
theorem error?_of_text? {error : Error} (htext : call.text? = some text)
    (herror : (engine.compile cache text).1.outcome = .error error) :
    call.error? engine cache = some error := by
  rcases text?_eq_some_iff.mp htext with rfl | ⟨hne, bindings, rfl⟩
  · rw [error?, Traced.error?, herror]
  · rw [error?, Traced.error?, engine.outcome_evaluate cache hne, herror]
    rfl

theorem events_of_no_text (htext : call.text? = none) :
    call.events engine cache =
      match call.source? engine with
      | some source => (Program.compile source).events
      | none => [] := by
  cases call with
  | evaluate text bindings =>
      obtain rfl : text = "" := by simpa [text?] using htext
      rfl
  | compile text => cases htext
  | convert text => exact Traced.events_bind fun _ => rfl
  | _ => rfl

end Call

/-- An engine that uses a cache asks it for the program of a text. -/
theorem Engine.compile_eq_serve {engine : Engine} (hcache : engine.useCache = true) (cache : Cache)
    (text : String) :
    engine.compile cache text =
      cache.serve ⟨text, fun _ => Program.compile (engine.source text)⟩ := by
  rw [compile, if_pos hcache]
  rfl

namespace Operation

variable (cache : Cache) {operation : Operation} {asked : Cache.Request}

/-- A request is made directly, or for the text of a call. -/
theorem cases_of_request? (hrequest : operation.request? = some asked) :
    operation = .direct asked ∨
      ∃ engine call text, operation = .through engine call ∧ engine.useCache = true ∧
        call.text? = some text ∧
        asked = ⟨text, fun _ => Program.compile (engine.source text)⟩ := by
  cases operation with
  | direct given =>
      obtain rfl := Option.some.inj hrequest
      exact .inl rfl
  | through engine call =>
      rw [request?, Option.ite_none_right_eq_some, Option.map_eq_some_iff] at hrequest
      obtain ⟨hcache, text, htext, rfl⟩ := hrequest
      exact .inr ⟨engine, call, text, rfl, hcache, htext, rfl⟩

theorem events_of_request? (hrequest : operation.request? = some asked) :
    operation.events cache = (cache.serve asked).1.events := by
  rcases cases_of_request? hrequest with rfl | ⟨engine, call, text, rfl, hcache, htext, rfl⟩
  · rfl
  · rw [events, Call.events_of_text? engine cache htext, Engine.compile_eq_serve hcache]

theorem error?_of_request? {error : Error} (hrequest : operation.request? = some asked)
    (herror : (cache.serve asked).1.outcome = .error error) :
    operation.error? cache = some error := by
  rcases cases_of_request? hrequest with rfl | ⟨engine, call, text, rfl, hcache, htext, rfl⟩
  · rw [error?, Traced.error?, herror]
  · rw [← Engine.compile_eq_serve hcache] at herror
    exact Call.error?_of_text? engine cache htext herror

theorem events_of_no_request (hrequest : operation.request? = none) :
    operation.events cache =
      match operation.source? with
      | some source => (Program.compile source).events
      | none => [] := by
  cases operation with
  | direct asked => cases hrequest
  | through engine call =>
      rw [events, source?]
      cases htext : call.text? with
      | none => exact Call.events_of_no_text engine cache htext
      | some text =>
          have hcache : ¬ engine.useCache = true := by
            intro hcache
            simp [request?, hcache, htext] at hrequest
          rw [Call.events_of_text? engine cache htext, Call.source?_of_text? engine htext,
            Engine.compile, if_neg hcache]

end Operation

namespace Cache

/-! ## The log and the counts -/

/-- What is reported during some operations, one after another. -/
def log (cache : Cache) : List Operation → List Event
  | [] => []
  | operation :: rest => operation.events cache ++ (operation.after cache).log rest

/-- The counts and the size of a cache agree with a log. -/
structure Logged (cache : Cache) (log : List Event) : Prop where
  hits_eq : cache.hits = log.countP Event.isCacheHit
  compilations_eq :
    cache.compilations = log.countP Event.isCompiled + log.countP Event.isCompilationFailed
  size_eq : cache.size = log.countP Event.isCompiled

variable {cache : Cache} {earlier : List Event} {asked : Request} {operation : Operation}

theorem logged_empty : Logged {} [] := ⟨rfl, rfl, rfl⟩

/-- A log is continued by events that count as much as the cache does. -/
theorem Logged.append (hlogged : cache.Logged earlier) {next : Cache} {events : List Event}
    (hhits : next.hits = cache.hits + events.countP Event.isCacheHit)
    (hcompilations : next.compilations = cache.compilations +
      (events.countP Event.isCompiled + events.countP Event.isCompilationFailed))
    (hsize : next.size = cache.size + events.countP Event.isCompiled) :
    next.Logged (earlier ++ events) := by
  obtain ⟨hhits', hcompilations', hsize'⟩ := hlogged
  refine ⟨?_, ?_, ?_⟩ <;> rw [List.countP_append]
  · omega
  · rw [List.countP_append]
    omega
  · omega

theorem Logged.operands (hlogged : cache.Logged earlier) {events : List Event}
    (honly : OnlyOperands events) : cache.Logged (earlier ++ events) := by
  apply hlogged.append
  · rw [honly.countP_eq_zero fun _ => rfl, Nat.add_zero]
  · rw [honly.countP_eq_zero fun _ => rfl, honly.countP_eq_zero fun _ => rfl]
    rfl
  · rw [honly.countP_eq_zero fun _ => rfl, Nat.add_zero]

/-- The last event of a request tells what has become of it. -/
theorem Logged.serve (hlogged : cache.Logged earlier)
    (honly : OnlyOperands (asked.compile ()).events) :
    (cache.serve asked).2.Logged (earlier ++ (cache.serve asked).1.events) := by
  rcases cache.serve_cases asked with ⟨program, -, hserve⟩ | ⟨program, -, -, hserve⟩ |
    ⟨error, -, -, hserve⟩
  · rw [hserve]
    exact hlogged.append rfl rfl rfl
  · rw [hserve, ← List.append_assoc]
    exact (hlogged.operands honly).append rfl rfl rfl
  · rw [hserve, ← List.append_assoc]
    exact (hlogged.operands honly).append rfl rfl rfl

/-- What an operation asks of a cache reports nothing but operands, if direct requests do. -/
theorem onlyOperands_of_request?
    (hdirect : ∀ asked, operation = .direct asked → OnlyOperands (asked.compile ()).events)
    (hrequest : operation.request? = some asked) : OnlyOperands (asked.compile ()).events := by
  rcases Operation.cases_of_request? hrequest with rfl | ⟨_, _, text, rfl, _, _, rfl⟩
  · exact hdirect asked rfl
  · exact (Program.reportsOperands_compile _).onlyOperands

theorem Logged.after (hlogged : cache.Logged earlier)
    (hdirect : ∀ asked, operation = .direct asked → OnlyOperands (asked.compile ()).events) :
    (operation.after cache).Logged (earlier ++ operation.events cache) := by
  rw [operation.after_eq_serve]
  cases hrequest : operation.request? with
  | some asked =>
      rw [operation.events_of_request? cache hrequest]
      exact hlogged.serve (onlyOperands_of_request? hdirect hrequest)
  | none =>
      rw [Operation.events_of_no_request cache hrequest]
      refine hlogged.operands ?_
      split
      next source _ => exact (Program.reportsOperands_compile source).onlyOperands
      next => simp [OnlyOperands]

theorem Logged.afterOperations (hlogged : cache.Logged earlier) {operations : List Operation}
    (hdirect : ∀ asked, .direct asked ∈ operations → OnlyOperands (asked.compile ()).events) :
    (cache.afterOperations operations).Logged (earlier ++ cache.log operations) := by
  induction operations generalizing cache earlier with
  | nil =>
      rw [log, List.append_nil]
      exact hlogged
  | cons operation rest ih =>
      rw [log, ← List.append_assoc]
      refine ih (hlogged.after fun asked hasked => hdirect asked ?_) fun asked hasked =>
        hdirect asked (List.mem_cons_of_mem _ hasked)
      exact hasked ▸ List.mem_cons_self

/-! ## The events of one operation -/

/-- A request that is a miss and compiles a text reports this compilation. -/
theorem reportsCompilation_of_absent (hrequest : operation.request? = some asked)
    (habsent : cache.find? asked.key = none) {source : String}
    (hcompile : asked.compile () = Program.compile source) :
    ReportsCompilation asked.key source (operation.error? cache) (operation.events cache) := by
  refine ⟨(Program.compile source).events, Program.reportsOperands_compile source, ?_⟩
  rcases cache.serve_cases asked with ⟨program, hfind, -⟩ | ⟨program, -, hmade, hserve⟩ |
    ⟨error, -, hmade, hserve⟩
  · cases habsent.symm.trans hfind
  · rw [hcompile] at hmade
    obtain ⟨tokens, htokens, hlength⟩ := Program.length_of_ofText hmade
    rw [show Program.ofText source = .ok program from hmade]
    refine ⟨tokens, htokens, ?_⟩
    rw [operation.events_of_request? cache hrequest, hserve, hcompile, hlength]
  · have herror : (cache.serve asked).1.outcome = .error error := by rw [hserve]
    rw [hcompile] at hmade
    rw [show Program.ofText source = .error error from hmade]
    refine ⟨operation.error?_of_request? cache hrequest herror, ?_⟩
    rw [operation.events_of_request? cache hrequest, hserve, hcompile]

/-- Whatever is done with a cache, starting from an empty one, its log has one message for each hit,
one for the end of each compilation that was begun, and one for each program that is stored; only
operands may be reported by the compilations that come with direct requests. An operation that is a
hit reports this and nothing else. One that is a miss reports the operands of the text that it
compiles, as far as they are reached, and then how the compilation has ended. One that makes no
request reports these operands if it compiles a text, and otherwise nothing. -/
theorem log_afterOperations (operations : List Operation)
    (hdirect : ∀ asked, .direct asked ∈ operations → OnlyOperands (asked.compile ()).events) :
    let cache := afterOperations {} operations
    let events := log {} operations
    (cache.hits = events.countP (Event.beginsWith "formula cache hit: ") ∧
      cache.compilations = events.countP (Event.beginsWith "compiled ") +
        events.countP (Event.beginsWith "failed to compile ") ∧
      cache.size = events.countP (Event.beginsWith "compiled ")) ∧
    ∀ operation : Operation,
      match operation.request? with
      | some asked =>
          cache.IsHit asked ∧ operation.events cache = [.cacheHit asked.key] ∨
          cache.IsMiss asked ∧ ∀ source, asked.compile () = Program.compile source →
            ReportsCompilation asked.key source (operation.error? cache) (operation.events cache)
      | none =>
          match operation.source? with
          | some source => ReportsOperands source.toList (operation.events cache)
          | none => operation.events cache = [] := by
  intro cache events
  refine ⟨?_, fun operation => ?_⟩
  · obtain ⟨hhits, hcompilations, hsize⟩ := logged_empty.afterOperations hdirect
    rw [Event.beginsWith_cacheHit, Event.beginsWith_compiled, Event.beginsWith_compilationFailed]
    exact ⟨hhits, hcompilations, hsize⟩
  · split
    next asked hrequest =>
      cases hfind : cache.find? asked.key with
      | some program =>
          refine .inl ⟨isHit_of_found hfind, ?_⟩
          rw [operation.events_of_request? cache hrequest, serve, request_of_found hfind]
      | none =>
          exact .inr ⟨isMiss_of_absent hfind, fun source hcompile =>
            reportsCompilation_of_absent hrequest hfind hcompile⟩
    next hrequest =>
      rw [Operation.events_of_no_request cache hrequest]
      split
      next source _ => exact Program.reportsOperands_compile source
      next => rfl

/-- A request for a text with a stray character, an evaluation and its repetition, and a conversion.
What touches the stray character is not reported. -/
theorem log_afterOperations_mixed :
    let evaluation : Operation := .through {} (.evaluate (braced "2+x") Bindings.empty)
    let operations : List Operation :=
      [.direct ⟨"a", fun _ => Program.compile "a+1.2.3$"⟩, evaluation, evaluation,
        .through {} (.convert "y")]
    let cache := afterOperations {} operations
    log {} operations =
        [.operand "a", .compilationFailed "a" (.invalidCharacter "$"), .operand "2", .operand "x",
          .compiled (braced "2+x") 3, .cacheHit (braced "2+x"), .operand "y"] ∧
      cache.hits = 1 ∧ cache.compilations = 2 ∧ cache.size = 1 ∧
      ReportsOperands "z".toList (Operation.events cache (.through {} (.convert "z"))) := by
  intro evaluation operations cache
  have hlog : log {} operations =
      [.operand "a", .compilationFailed "a" (.invalidCharacter "$"), .operand "2", .operand "x",
        .compiled (braced "2+x") 3, .cacheHit (braced "2+x"), .operand "y"] := by
    decide +kernel
  have hdirect : ∀ asked, .direct asked ∈ operations →
      OnlyOperands (asked.compile ()).events := by
    intro asked hasked
    obtain rfl : asked = ⟨"a", fun _ => Program.compile "a+1.2.3$"⟩ := by
      simpa [operations, evaluation] using hasked
    exact (Program.reportsOperands_compile _).onlyOperands
  obtain ⟨⟨hhits, hcompilations, hsize⟩, hsteps⟩ := log_afterOperations operations hdirect
  rw [hlog, Event.beginsWith_cacheHit] at hhits
  rw [hlog, Event.beginsWith_compiled, Event.beginsWith_compilationFailed] at hcompilations
  rw [hlog, Event.beginsWith_compiled] at hsize
  exact ⟨hlog, hhits, hcompilations, hsize, hsteps (.through {} (.convert "z"))⟩

end Cache

end Formula
