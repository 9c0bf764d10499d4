import Formula.Proofs.Nesting
import Formula.Token.Scan
import Mathlib.Data.List.Chain

/-!
# What stands on a single stack

A conversion that keeps everything on one stack finds its way by precedences alone, as a parenthesis
and the bottom of the stack bind less tightly than every operator. The invariant of its runs is that
each symbol but an opening parenthesis binds more tightly than the one below it. As there are two
levels of precedence, no more than two operators wait at each level of parentheses. To look at the
topmost symbol before symbols are taken off the stack makes no difference.
-/

namespace Formula.Siding

/-- What stands on the stack of a conversion: the parentheses that are open, and operators that bind
more tightly than what is below them. -/
structure Ascending (stack : List Symbol) : Prop where
  closing_notMem : .parenthesis .closing ∉ stack
  isChain : stack.IsChain fun upper lower =>
    upper = .parenthesis .opening ∨ lower.precedence < upper.precedence

variable {siding next : Siding} {stack rest : List Symbol} {operator : Operator}

theorem one_lt_precedence (operator : Operator) : 1 < operator.precedence := by
  cases operator <;> decide

theorem topPrecedence_le (stack : List Symbol) : topPrecedence stack ≤ 3 := by
  cases stack with
  | nil => decide
  | cons top rest =>
      change top.precedence ≤ 3
      rcases top with operator | side
      · cases operator <;> decide
      · cases side <;> decide

/-! ## Symbols that go -/

theorem suffix_release (precedence : Nat) (emitted : List Token) (stack : List Symbol) :
    (release precedence emitted stack).stack <:+ stack := by
  induction stack generalizing emitted with
  | nil => exact List.suffix_rfl
  | cons top rest ih =>
      rw [release]
      split
      · exact List.suffix_rfl
      · exact (ih _).trans (List.suffix_cons top rest)

/-- What an operator leaves on the stack binds less tightly than the operator. -/
theorem topPrecedence_release (operator : Operator) (emitted : List Token) (stack : List Symbol) :
    topPrecedence (release operator.precedence emitted stack).stack < operator.precedence := by
  induction stack generalizing emitted with
  | nil => exact one_lt_precedence operator
  | cons top rest ih =>
      rw [release]
      split
      next hloose => exact hloose
      next => exact ih _

theorem suffix_close {emitted : List Token} (hclose : close emitted stack = .ok next) :
    next.stack <:+ stack := by
  fun_induction close emitted stack with
  | case1 => cases hclose
  | case2 emitted rest =>
      obtain rfl := Except.ok.inj hclose
      exact List.suffix_cons _ rest
  | case3 emitted top rest _ ih => exact (ih hclose).trans (List.suffix_cons top rest)

/-! ## The invariant -/

theorem ascending_nil : Ascending [] := ⟨List.not_mem_nil, List.isChain_nil⟩

theorem Ascending.suffix (hstack : Ascending stack) (hsuffix : rest <:+ stack) : Ascending rest :=
  ⟨fun hmem => hstack.closing_notMem (hsuffix.mem hmem), hstack.isChain.suffix hsuffix⟩

/-- An operator may wait on top of what binds less tightly. -/
theorem Ascending.push (hstack : Ascending stack)
    (hloose : topPrecedence stack < operator.precedence) :
    Ascending (.operator operator :: stack) := by
  refine ⟨by simpa using hstack.closing_notMem, List.isChain_cons.mpr ⟨?_, hstack.isChain⟩⟩
  intro top htop
  obtain ⟨rest, rfl⟩ := List.head?_eq_some_iff.mp htop
  exact .inr hloose

theorem Ascending.open (hstack : Ascending stack) :
    Ascending (.parenthesis .opening :: stack) :=
  ⟨by simpa using hstack.closing_notMem,
    List.isChain_cons.mpr ⟨fun _ _ => .inl rfl, hstack.isChain⟩⟩

theorem Ascending.step {token : Token} (hstack : Ascending siding.stack)
    (hstep : siding.step token = .ok next) : Ascending next.stack := by
  rcases token with operand | operator | _ | _
  · obtain rfl := Except.ok.inj hstep
    exact hstack
  · obtain rfl := Except.ok.inj hstep
    unfold await
    split
    next hloose => exact hstack.push hloose
    next =>
      exact (hstack.suffix (suffix_release _ _ _)).push (topPrecedence_release operator _ _)
  · obtain rfl := Except.ok.inj hstep
    exact hstack.open
  · exact hstack.suffix (suffix_close hstep)

theorem Ascending.run {tokens : List Token} (hstack : Ascending siding.stack)
    (hrun : siding.run tokens = .ok next) : Ascending next.stack := by
  induction tokens generalizing siding with
  | nil =>
      obtain rfl := Except.ok.inj hrun
      exact hstack
  | cons token rest ih =>
      rw [Siding.run, List.foldlM_cons] at hrun
      obtain ⟨middle, hstep, hrest⟩ := Except.bind_eq_ok_iff.mp hrun
      exact ih (hstack.step hstep) hrest

/-! ## How many symbols there are -/

/-- Each operator lifts the precedence of the topmost symbol, and only a parenthesis brings it down
again, by no more than the two levels that there are. -/
theorem Ascending.length_lt (hstack : Ascending stack) :
    stack.length < 3 * stack.count (.parenthesis .opening) + topPrecedence stack := by
  induction stack with
  | nil => decide
  | cons top rest ih =>
      have hrest := ih (hstack.suffix (List.suffix_cons top rest))
      rcases top with operator | _ | _
      · have hlift : topPrecedence rest < operator.precedence := by
          cases rest with
          | nil => exact one_lt_precedence operator
          | cons below rest =>
              exact (List.isChain_cons_cons.mp hstack.isChain).1.resolve_left (by simp)
        rw [List.count_cons_of_ne (by simp), List.length_cons]
        change _ < _ + operator.precedence
        omega
      · have hlevels := topPrecedence_le rest
        rw [List.count_cons_self, List.length_cons]
        change _ < _ + 1
        omega
      · exact absurd List.mem_cons_self hstack.closing_notMem

/-- Of the symbols between two parentheses, or between one and an end of the stack, each one binds
more tightly than the one below it, so that there are no more than two. -/
theorem Ascending.segment {segment : List Symbol} (hstack : Ascending stack)
    (hsegment : segment <:+: stack) (hopening : .parenthesis .opening ∉ segment) :
    (segment.map Symbol.precedence).Pairwise (· > ·) ∧ segment.length ≤ 2 := by
  have hascending : Ascending segment :=
    ⟨fun hmem => hstack.closing_notMem (hsegment.mem hmem), hstack.isChain.infix hsegment⟩
  constructor
  · rw [← List.isChain_iff_pairwise, List.isChain_map]
    refine hascending.isChain.imp_of_mem_imp fun upper lower hupper _ hbinds => ?_
    exact hbinds.resolve_left fun heq => hopening (heq ▸ hupper)
  · have hlength := hascending.length_lt
    have htop := topPrecedence_le segment
    rw [List.count_eq_zero.mpr hopening] at hlength
    omega

/-! ## Conversions that do not look first -/

/-- Let an operator wait, after all symbols have been taken off the stack that bind at least as
tightly. -/
def plainAwait (siding : Siding) (operator : Operator) : Siding :=
  let released := release operator.precedence siding.emitted siding.stack
  { released with stack := .operator operator :: released.stack }

def plainStep (siding : Siding) : Token → Except Error Siding
  | .symbol (.operator operator) => .ok (siding.plainAwait operator)
  | token => siding.step token

def plainConvert (tokens : List Token) : Except Error (List Token) :=
  (tokens.foldlM plainStep {}).bind fun last => finish last.emitted last.stack

theorem release_of_loose {precedence : Nat} (emitted : List Token)
    (hloose : topPrecedence stack < precedence) :
    release precedence emitted stack = ⟨emitted, stack⟩ := by
  cases stack with
  | nil => rfl
  | cons top rest =>
      rw [release]
      exact if_pos hloose

theorem plainAwait_eq (siding : Siding) (operator : Operator) :
    siding.plainAwait operator = siding.await operator := by
  unfold plainAwait await
  split
  next hloose => rw [release_of_loose siding.emitted hloose]
  next => rfl

theorem plainConvert_eq (tokens : List Token) : plainConvert tokens = convert tokens := by
  have hstep : plainStep = step := by
    funext siding token
    rcases token with operand | operator | side
    · rfl
    · exact congrArg Except.ok (siding.plainAwait_eq operator)
    · rfl
  rw [plainConvert, hstep]
  rfl

/-! ## Beginnings -/

theorem count_opening_siding (yard : Yard) :
    yard.siding.stack.count (.parenthesis .opening) = yard.outer.length := by
  have hlevel (level : List Operator) :
      (level.map Symbol.operator).count (.parenthesis .opening) = 0 := by
    simp [List.count_eq_zero]
  obtain ⟨emitted, waiting, outer⟩ := yard
  simp only [Yard.siding, List.count_append, hlevel, Nat.zero_add]
  induction outer with
  | nil => rfl
  | cons around outer ih =>
      rw [Yard.outerStack_cons, List.count_cons_self, List.count_append, hlevel, Nat.zero_add, ih,
        List.length_cons]

/-- What is on the stack when a conversion has taken a beginning of its tokens. No closing
parenthesis is among it, and of the opening ones as many as are open. Between these, the precedences
go up from the bottom to the top, so that no more than two operators wait at each level, and the
stack has a bound in the number of its parentheses. A conversion that takes symbols off the stack
before each operator, without looking whether it need do so, comes to the same. -/
theorem stack_ascending (tokens : List Token) :
    (∀ start siding, start <+: tokens → run {} start = .ok siding →
      (∃ yard, Yard.run {} start = .ok yard ∧ yard.siding = siding) ∧
      .parenthesis .closing ∉ siding.stack ∧
      siding.stack.count (.parenthesis .opening) + Token.parentheses .closing start =
        Token.parentheses .opening start ∧
      (∀ segment, segment <:+: siding.stack → .parenthesis .opening ∉ segment →
        (segment.map Symbol.precedence).Pairwise (· > ·) ∧ segment.length ≤ 2) ∧
      siding.stack.length ≤ 3 * siding.stack.count (.parenthesis .opening) + 2) ∧
    plainConvert tokens = convert tokens ∧
    convert tokens = (Program.ofTokens tokens).map Program.tokens := by
  refine ⟨?_, plainConvert_eq tokens, convert_eq tokens⟩
  intro start siding _ hrun
  have hstack : Ascending siding.stack := Ascending.run ascending_nil hrun
  obtain ⟨yard, hyard, rfl⟩ := exists_yard_of_run hrun
  have hdepth := Token.parentheses_of_depth? (Yard.depth_of_run hyard)
  refine ⟨⟨yard, hyard, rfl⟩, hstack.closing_notMem, ?_, fun segment => hstack.segment, ?_⟩
  · rw [count_opening_siding, ← hdepth]
    exact Nat.zero_add _
  · have hlength := hstack.length_lt
    have htop := topPrecedence_le yard.siding.stack
    omega

-- The bound is reached.
example : ((Token.tokenize "a+b*(c-d/").bind (run {})).map Siding.stack =
    .ok [.operator .divide, .operator .subtract, .parenthesis .opening, .operator .multiply,
      .operator .add] := by
  decide +kernel

end Formula.Siding
