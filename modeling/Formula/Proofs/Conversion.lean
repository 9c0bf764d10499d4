import Formula.Program.Conversion
import Formula.Proofs.Outcome

/-!
# What a conversion does with its tokens

A row of tokens that belongs together is taken by a conversion in any state in which no operator
waits that binds as tightly as those of the row. Such a row leaves behind its own steps, apart from
some operators that still wait for the end of the row, and does not touch what was there before.
The rows that are made of shorter ones by an operator or by parentheses are of this kind again.
-/

namespace Formula

namespace Yard

theorem run_append (yard : Yard) (first second : List Token) :
    yard.run (first ++ second) = (yard.run first).bind fun middle => middle.run second :=
  List.foldlM_append

theorem run_cons (yard : Yard) (token : Token) (rest : List Token) :
    yard.run (token :: rest) = (yard.step token).bind fun next => next.run rest := by
  rw [run, List.foldlM_cons]
  rfl

/-- A conversion that takes a row of tokens takes the first one and then the others. -/
theorem exists_of_run_cons {yard last : Yard} {token : Token} {rest : List Token}
    (hrun : yard.run (token :: rest) = .ok last) :
    ∃ next, yard.step token = .ok next ∧ next.run rest = .ok last := by
  rw [run_cons] at hrun
  exact Except.bind_eq_ok_iff.mp hrun

/-- Operators that bind at least as tightly as the next one go into the program, and the next one
waits on top of those that do not. -/
theorem await_eq {yard : Yard} {operator : Operator} {due kept : List Operator}
    (hwaiting : yard.waiting = due ++ kept)
    (hdue : ∀ top ∈ due, operator.precedence ≤ top.precedence)
    (hkept : ∀ top ∈ kept.head?, top.precedence < operator.precedence) :
    yard.await operator = ⟨release due yard.emitted, operator :: kept, yard.outer⟩ := by
  unfold await
  rw [hwaiting]
  split
  next hloose =>
    have hnil : due = [] := by
      cases due with
      | nil => rfl
      | cons top rest =>
          have htop := hdue top List.mem_cons_self
          simp only [List.cons_append, topPrecedence] at hloose
          omega
    subst hnil
    rfl
  next =>
    have hall : ∀ top ∈ due, decide (operator.precedence ≤ top.precedence) = true := fun top htop =>
      decide_eq_true (hdue top htop)
    have hhead : kept.takeWhile (fun top => decide (operator.precedence ≤ top.precedence)) = [] ∧
        kept.dropWhile (fun top => decide (operator.precedence ≤ top.precedence)) = kept := by
      cases kept with
      | nil => exact ⟨rfl, rfl⟩
      | cons top rest =>
          have htop := hkept top rfl
          simp [htop]
    simp only [List.takeWhile_append_of_pos hall, List.dropWhile_append_of_pos hall, hhead.1,
      hhead.2, List.append_nil]

/-- A row of tokens is converted to steps by itself, where the operators that wait bind less than
`precedence`: it adds its steps, some of which may still wait, and changes nothing else. -/
def Converts (precedence : Nat) (tokens : List Token) (steps : List Instruction) : Prop :=
  ∀ yard : Yard, (∀ top ∈ yard.waiting.head?, top.precedence < precedence) →
    ∃ emitted waiting, yard.run tokens = .ok ⟨emitted, waiting ++ yard.waiting, yard.outer⟩ ∧
      (∀ operator ∈ waiting, precedence ≤ operator.precedence) ∧
      release waiting emitted = steps.reverse ++ yard.emitted

theorem converts_operand (precedence : Nat) (operand : Operand) :
    Converts precedence [.operand operand] [.push operand] := by
  intro yard _
  exact ⟨.push operand :: yard.emitted, [], rfl, by simp, rfl⟩

theorem Converts.loosen {precedence : Nat} {tokens : List Token} {steps : List Instruction}
    (hconverts : Converts (precedence + 1) tokens steps) : Converts precedence tokens steps := by
  intro yard hyard
  obtain ⟨emitted, waiting, hrun, hwaiting, hrelease⟩ := hconverts yard fun top htop =>
    Nat.lt_succ_of_lt (hyard top htop)
  exact ⟨emitted, waiting, hrun, fun operator hoperator =>
    Nat.le_of_succ_le (hwaiting operator hoperator), hrelease⟩

/-- What binds more tightly than an operator may stand on its right, and what binds as tightly on
its left. -/
theorem Converts.binary {precedence : Nat} {left right : List Token}
    {before after : List Instruction} {operator : Operator}
    (hprecedence : operator.precedence = precedence) (hleft : Converts precedence left before)
    (hright : Converts (precedence + 1) right after) :
    Converts precedence (left ++ .symbol (.operator operator) :: right)
      (before ++ (after ++ [.apply operator])) := by
  subst hprecedence
  intro yard hyard
  obtain ⟨emitted, waiting, hrun, hwaiting, hrelease⟩ := hleft yard hyard
  have hstep : step ⟨emitted, waiting ++ yard.waiting, yard.outer⟩ (.symbol (.operator operator)) =
      .ok ⟨release waiting emitted, operator :: yard.waiting, yard.outer⟩ :=
    congrArg Except.ok (await_eq rfl hwaiting hyard)
  -- What stands on the right begins where only the new operator and looser ones wait.
  obtain ⟨emitted', waiting', hrun', hwaiting', hrelease'⟩ :=
    hright ⟨release waiting emitted, operator :: yard.waiting, yard.outer⟩ (by simp)
  refine ⟨emitted', waiting' ++ [operator], ?_, ?_, ?_⟩
  · rw [run_append, hrun]
    show run _ (_ :: right) = _
    rw [run_cons, hstep]
    show run _ right = _
    rw [hrun', List.append_assoc]
    rfl
  · intro top htop
    rcases List.mem_append.mp htop with htop | htop
    · exact Nat.le_of_succ_le (hwaiting' top htop)
    · exact (List.mem_singleton.mp htop) ▸ Nat.le_refl _
  · -- The operator goes into the program right after the steps of both sides.
    calc release (waiting' ++ [operator]) emitted'
        = Instruction.apply operator :: release waiting' emitted' := by simp [release]
      _ = Instruction.apply operator :: (after.reverse ++ (before.reverse ++ yard.emitted)) := by
          rw [hrelease', hrelease]
      _ = (before ++ (after ++ [Instruction.apply operator])).reverse ++ yard.emitted := by simp

/-- Parentheses keep the operators inside of them apart from those that wait outside. -/
theorem Converts.group {precedence outside : Nat} {inner : List Token} {steps : List Instruction}
    (hinner : Converts precedence inner steps) :
    Converts outside
      (.symbol (.parenthesis .opening) :: (inner ++ [.symbol (.parenthesis .closing)])) steps := by
  intro yard _
  obtain ⟨emitted, waiting, hrun, _, hrelease⟩ :=
    hinner ⟨yard.emitted, [], yard.waiting :: yard.outer⟩ (by simp)
  refine ⟨release waiting emitted, [], ?_, by simp, hrelease⟩
  show run ⟨yard.emitted, [], yard.waiting :: yard.outer⟩ _ = _
  rw [run_append, hrun, List.append_nil]
  rfl

theorem Converts.ofTokens {precedence : Nat} {tokens : List Token} {steps : List Instruction}
    (hconverts : Converts precedence tokens steps) : Program.ofTokens tokens = .ok ⟨steps⟩ := by
  obtain ⟨emitted, waiting, hrun, _, hrelease⟩ := hconverts {} (by simp)
  rw [Program.ofTokens, hrun]
  show Except.ok (Program.mk (release (waiting ++ []) emitted).reverse) = _
  rw [List.append_nil, hrelease]
  simp

/-! ## What lies underneath -/

/-- A state on top of steps and levels that were there before. -/
def above (yard : Yard) (emitted : List Instruction) (outer : List (List Operator)) : Yard :=
  ⟨yard.emitted ++ emitted, yard.waiting, yard.outer ++ outer⟩

theorem await_above (yard : Yard) (operator : Operator) (emitted : List Instruction)
    (outer : List (List Operator)) :
    (yard.above emitted outer).await operator = (yard.await operator).above emitted outer := by
  have hwaiting : (yard.above emitted outer).waiting = yard.waiting := rfl
  unfold await
  rw [hwaiting]
  by_cases hloose : topPrecedence yard.waiting < operator.precedence
  · rw [if_pos hloose, if_pos hloose]
    rfl
  · rw [if_neg hloose, if_neg hloose]
    simp [above, release]

theorem step_above {yard next : Yard} {token : Token} (hstep : yard.step token = .ok next)
    (emitted : List Instruction) (outer : List (List Operator)) :
    (yard.above emitted outer).step token = .ok (next.above emitted outer) := by
  rcases token with operand | operator | side
  · obtain rfl := Except.ok.inj hstep
    rfl
  · obtain rfl := Except.ok.inj hstep
    exact congrArg Except.ok (yard.await_above operator emitted outer)
  · cases side with
    | opening =>
        obtain rfl := Except.ok.inj hstep
        rfl
    | closing =>
        obtain ⟨before, waiting, levels⟩ := yard
        cases levels with
        | nil => cases hstep
        | cons around levels =>
            obtain rfl := Except.ok.inj hstep
            simp [above, step, release]

/-- A conversion that takes all tokens takes them alike on top of whatever was there before, and
does not touch that. -/
theorem run_above {yard last : Yard} {tokens : List Token} (hrun : yard.run tokens = .ok last)
    (emitted : List Instruction) (outer : List (List Operator)) :
    (yard.above emitted outer).run tokens = .ok (last.above emitted outer) := by
  induction tokens generalizing yard with
  | nil =>
      obtain rfl := Except.ok.inj hrun
      rfl
  | cons token rest ih =>
      obtain ⟨next, hstep, hrest⟩ := exists_of_run_cons hrun
      rw [run_cons, step_above hstep]
      exact ih hrest

/-- What is in the program has no part in what a token does, or in whether it can be taken. -/
theorem step_above_emitted (yard : Yard) (token : Token) (emitted : List Instruction) :
    (yard.above emitted []).step token =
      (yard.step token).map fun next => next.above emitted [] := by
  cases hstep : yard.step token with
  | ok next => exact step_above hstep emitted []
  | error error =>
      rcases token with operand | operator | _ | _
      · cases hstep
      · cases hstep
      · cases hstep
      · obtain ⟨before, waiting, _ | ⟨around, levels⟩⟩ := yard
        · exact hstep
        · cases hstep

theorem run_above_emitted (yard : Yard) (tokens : List Token) (emitted : List Instruction) :
    (yard.above emitted []).run tokens =
      (yard.run tokens).map fun last => last.above emitted [] := by
  induction tokens generalizing yard with
  | nil => rfl
  | cons token rest ih =>
      rw [run_cons, run_cons, step_above_emitted]
      cases yard.step token with
      | error error => rfl
      | ok next => exact ih next

end Yard

/-- A program is what a conversion holds at the end, when no parenthesis is open. -/
theorem Program.exists_of_ofTokens {tokens : List Token} {program : Program}
    (hprogram : Program.ofTokens tokens = .ok program) :
    ∃ last, Yard.run {} tokens = .ok last ∧ last.outer = [] ∧
      program = ⟨(Yard.release last.waiting last.emitted).reverse⟩ := by
  unfold Program.ofTokens at hprogram
  obtain ⟨last, hrun, hfinish⟩ := Except.bind_eq_ok_iff.mp hprogram
  obtain ⟨emitted, waiting, outer⟩ := last
  cases outer with
  | nil => exact ⟨_, hrun, rfl, (Except.ok.inj hfinish).symm⟩
  | cons around outer => cases hfinish

/-- Tokens that make a program add its steps, all at once, when they stand in parentheses, whatever
the state that they are met in. -/
theorem Yard.run_group {tokens : List Token} {program : Program}
    (hprogram : Program.ofTokens tokens = .ok program) (yard : Yard) :
    yard.run (.symbol (.parenthesis .opening) :: (tokens ++ [.symbol (.parenthesis .closing)])) =
      .ok { yard with emitted := program.instructions.reverse ++ yard.emitted } := by
  obtain ⟨last, hrun, houter, rfl⟩ := Program.exists_of_ofTokens hprogram
  have hinside := run_above hrun yard.emitted (yard.waiting :: yard.outer)
  rw [run_cons]
  show (above {} yard.emitted (yard.waiting :: yard.outer)).run _ = _
  rw [run_append, hinside]
  show run ⟨last.emitted ++ yard.emitted, last.waiting, last.outer ++ yard.waiting :: yard.outer⟩
    [.symbol (.parenthesis .closing)] = _
  rw [houter]
  show Except.ok (Yard.mk (release last.waiting (last.emitted ++ yard.emitted)) yard.waiting
    yard.outer) = _
  simp [release]

end Formula
