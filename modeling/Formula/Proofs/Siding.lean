import Formula.Proofs.Conversion

/-!
# Conversions on a single stack

The levels that a conversion keeps may as well lie on one stack, where an opening parenthesis stands
under the operators that wait inside of it. Nothing but the precedence of the symbols keeps the
operators of one level from being taken for those of another then: a parenthesis binds less tightly
than any operator, so that no operator moves one that waits below it. The main statement is that
both ways to convert tokens come to the same, errors included.
-/

namespace Formula

/-- The state of a conversion on one stack. -/
structure Siding where
  /-- The tokens of the program so far, the latest first. -/
  emitted : List Token := []
  /-- The operators that wait and the parentheses that are open, the latest first. -/
  stack : List Symbol := []

namespace Siding

/-- The precedence of the topmost symbol. An empty stack has that of a parenthesis. -/
def topPrecedence : List Symbol → Nat
  | [] => 1
  | top :: _ => top.precedence

/-- Take symbols off the stack, into the program, up to the first one that binds less tightly. -/
def release (precedence : Nat) (emitted : List Token) : List Symbol → Siding
  | [] => ⟨emitted, []⟩
  | top :: rest =>
      if top.precedence < precedence then ⟨emitted, top :: rest⟩
      else release precedence (.symbol top :: emitted) rest

def await (siding : Siding) (operator : Operator) : Siding :=
  if topPrecedence siding.stack < operator.precedence then
    { siding with stack := .operator operator :: siding.stack }
  else
    let released := release operator.precedence siding.emitted siding.stack
    { released with stack := .operator operator :: released.stack }

/-- Take symbols off the stack, into the program, up to the parenthesis that is closed. -/
def close (emitted : List Token) : List Symbol → Except Error Siding
  | [] => .error (.unmatchedParenthesis .opening)
  | .parenthesis .opening :: rest => .ok ⟨emitted, rest⟩
  | top :: rest => close (.symbol top :: emitted) rest

def step (siding : Siding) : Token → Except Error Siding
  | .operand operand => .ok { siding with emitted := .operand operand :: siding.emitted }
  | .symbol (.operator operator) => .ok (siding.await operator)
  | .symbol (.parenthesis .opening) =>
      .ok { siding with stack := .parenthesis .opening :: siding.stack }
  | .symbol (.parenthesis .closing) => close siding.emitted siding.stack

def run (siding : Siding) (tokens : List Token) : Except Error Siding := tokens.foldlM step siding

/-- Take all symbols off the stack, into the program, unless a parenthesis is among them. -/
def finish (emitted : List Token) : List Symbol → Except Error (List Token)
  | [] => .ok emitted.reverse
  | .parenthesis .opening :: _ => .error (.unmatchedParenthesis .closing)
  | top :: rest => finish (.symbol top :: emitted) rest

/-- The tokens of a program, from tokens in the order of a formula. -/
def convert (tokens : List Token) : Except Error (List Token) :=
  (run {} tokens).bind fun last => finish last.emitted last.stack

end Siding

namespace Yard

/-- The levels around the innermost one as a stack, from the parenthesis of the innermost one on. -/
def outerStack (outer : List (List Operator)) : List Symbol :=
  outer.flatMap fun level => .parenthesis .opening :: level.map .operator

/-- The state with all levels on one stack. -/
def siding (yard : Yard) : Siding :=
  ⟨yard.emitted.map Instruction.token, yard.waiting.map .operator ++ outerStack yard.outer⟩

theorem outerStack_cons (around : List Operator) (outer : List (List Operator)) :
    outerStack (around :: outer) =
      .parenthesis .opening :: (around.map .operator ++ outerStack outer) := rfl

theorem topPrecedence_siding (yard : Yard) :
    Siding.topPrecedence yard.siding.stack = topPrecedence yard.waiting := by
  obtain ⟨emitted, _ | ⟨top, waiting⟩, _ | ⟨around, outer⟩⟩ := yard <;> rfl

theorem release_cons (top : Operator) (due : List Operator) (emitted : List Instruction) :
    release (top :: due) emitted = release due (.apply top :: emitted) := by
  simp [release]

/-- No operator moves what waits below an open parenthesis. -/
theorem release_outerStack (operator : Operator) (emitted : List Token)
    (outer : List (List Operator)) :
    Siding.release operator.precedence emitted (outerStack outer) =
      ⟨emitted, outerStack outer⟩ := by
  cases outer with
  | nil => rfl
  | cons around outer =>
      have hloose : (Symbol.parenthesis .opening).precedence < operator.precedence := by
        cases operator <;> decide
      rw [outerStack_cons, Siding.release, if_pos hloose]

/-- Of the symbols on the stack, an operator moves those of its own level that bind at least as
tightly. -/
theorem release_siding (operator : Operator) (emitted : List Instruction) (waiting : List Operator)
    (outer : List (List Operator)) :
    let isDue (top : Operator) : Bool := operator.precedence ≤ top.precedence
    Siding.release operator.precedence (emitted.map Instruction.token)
        (waiting.map .operator ++ outerStack outer) =
      siding ⟨release (waiting.takeWhile isDue) emitted, waiting.dropWhile isDue, outer⟩ := by
  induction waiting generalizing emitted with
  | nil => exact release_outerStack operator _ outer
  | cons top waiting ih =>
      rw [List.map_cons, List.cons_append, Siding.release, Symbol.precedence]
      by_cases hdue : operator.precedence ≤ top.precedence
      · rw [if_neg (Nat.not_lt.mpr hdue)]
        refine (ih (.apply top :: emitted)).trans ?_
        simp [hdue, release_cons]
      · rw [if_pos (Nat.lt_of_not_le hdue)]
        simp [hdue, siding, release]

theorem await_siding (yard : Yard) (operator : Operator) :
    yard.siding.await operator = (yard.await operator).siding := by
  unfold Siding.await await
  rw [topPrecedence_siding]
  by_cases hloose : topPrecedence yard.waiting < operator.precedence
  · rw [if_pos hloose, if_pos hloose]
    rfl
  · rw [if_neg hloose, if_neg hloose]
    dsimp only [siding]
    rw [release_siding]
    rfl

/-- A closing parenthesis moves the operators of the innermost level, and takes that level off. -/
theorem close_siding (emitted : List Instruction) (waiting : List Operator)
    (outer : List (List Operator)) :
    Siding.close (emitted.map Instruction.token) (waiting.map .operator ++ outerStack outer) =
      (step ⟨emitted, waiting, outer⟩ (.symbol (.parenthesis .closing))).map siding := by
  induction waiting generalizing emitted with
  | nil => cases outer <;> rfl
  | cons top waiting ih =>
      rw [List.map_cons, List.cons_append, Siding.close]
      · refine (ih (.apply top :: emitted)).trans ?_
        simp only [step, release_cons]
      · intro heq
        cases heq

theorem step_siding (yard : Yard) (token : Token) :
    yard.siding.step token = (yard.step token).map siding := by
  rcases token with operand | operator | _ | _
  · rfl
  · exact congrArg Except.ok (await_siding yard operator)
  · rfl
  · exact close_siding yard.emitted yard.waiting yard.outer

/-- Each state of a conversion is, on a single stack, the state of one that has taken the same
tokens. -/
theorem run_siding (yard : Yard) (tokens : List Token) :
    yard.siding.run tokens = (yard.run tokens).map siding := by
  induction tokens generalizing yard with
  | nil => rfl
  | cons token rest ih =>
      rw [Siding.run, List.foldlM_cons, step_siding, run_cons]
      cases yard.step token with
      | error error => rfl
      | ok next => exact ih next

theorem finish_siding (emitted : List Instruction) (waiting : List Operator)
    (outer : List (List Operator)) :
    Siding.finish (emitted.map Instruction.token) (waiting.map .operator ++ outerStack outer) =
      (finish ⟨emitted, waiting, outer⟩).map Program.tokens := by
  induction waiting generalizing emitted with
  | nil =>
      cases outer with
      | nil => exact congrArg Except.ok List.map_reverse.symm
      | cons around outer => rfl
  | cons top waiting ih =>
      rw [List.map_cons, List.cons_append, Siding.finish]
      · refine (ih (.apply top :: emitted)).trans ?_
        simp only [finish, release_cons]
      · intro heq
        cases heq

end Yard

theorem Siding.run_eq (tokens : List Token) :
    run {} tokens = (Yard.run {} tokens).map Yard.siding := Yard.run_siding {} tokens

/-- The state that a conversion on one stack comes to is that of one that keeps levels. -/
theorem Siding.exists_yard_of_run {tokens : List Token} {siding : Siding}
    (hrun : run {} tokens = .ok siding) :
    ∃ yard, Yard.run {} tokens = .ok yard ∧ yard.siding = siding := by
  rw [run_eq] at hrun
  exact Except.map_eq_ok_iff.mp hrun

/-- A conversion on one stack gives the tokens of the program, or fails with the same error. -/
theorem Siding.convert_eq (tokens : List Token) :
    convert tokens = (Program.ofTokens tokens).map Program.tokens := by
  rw [convert, run_eq, Program.ofTokens]
  cases Yard.run {} tokens with
  | error error => rfl
  | ok last => exact Yard.finish_siding last.emitted last.waiting last.outer

end Formula
