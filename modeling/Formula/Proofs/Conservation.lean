import Formula.Proofs.Conversion

/-!
# What conversions keep

A conversion neither loses nor invents anything: the steps of a program are those that its tokens
stand for, in another order, and the operators that wait are kept in one level for each parenthesis
that is open.
-/

namespace Formula

/-- The step that a token becomes. Parentheses only say where steps go. -/
def Token.instruction? : Token → Option Instruction
  | .operand content => some (.push content)
  | .symbol (.operator operator) => some (.apply operator)
  | .symbol (.parenthesis _) => none

/-- The operand that a step puts on the stack, if it puts one there. -/
def Instruction.operand? : Instruction → Option Operand
  | push operand => some operand
  | apply _ => none

def Token.operand? : Token → Option Operand
  | operand content => some content
  | symbol _ => none

/-- How many parentheses are open behind tokens, when some are open before them. There is no answer
if one is closed that is not open. -/
def Token.depth? : Nat → List Token → Option Nat
  | depth, [] => some depth
  | depth, .symbol (.parenthesis .opening) :: rest => depth? (depth + 1) rest
  | 0, .symbol (.parenthesis .closing) :: _ => none
  | depth + 1, .symbol (.parenthesis .closing) :: rest => depth? depth rest
  | depth, _ :: rest => depth? depth rest

/-- What a beginning of a row has, where an empty one has not, begins with the row's first element. -/
theorem exists_prefix_cons_iff {α : Type} {p : List α → Prop} (hnil : ¬ p []) {first : α}
    {rest : List α} :
    (∃ start, start <+: first :: rest ∧ p start) ↔ ∃ start, start <+: rest ∧ p (first :: start) := by
  simp only [List.prefix_cons_iff]
  constructor
  · rintro ⟨_, rfl | ⟨start, rfl, hprefix⟩, hstart⟩
    · exact absurd hstart hnil
    · exact ⟨start, hprefix, hstart⟩
  · rintro ⟨start, hprefix, hstart⟩
    exact ⟨first :: start, .inr ⟨start, rfl, hprefix⟩, hstart⟩

namespace Token

theorem depth?_operand (depth : Nat) (content : Operand) (tokens : List Token) :
    depth? depth (.operand content :: tokens) = depth? depth tokens := by
  cases depth <;> rfl

theorem depth?_operator (depth : Nat) (operator : Operator) (tokens : List Token) :
    depth? depth (.symbol (.operator operator) :: tokens) = depth? depth tokens := by
  cases depth <;> rfl

end Token

namespace Yard

/-- All steps that a conversion holds: those in the program, and those that still wait. -/
def held (yard : Yard) : List Instruction :=
  yard.emitted ++ (yard.waiting ++ yard.outer.flatten).map Instruction.apply

theorem release_perm (due : List Operator) (emitted : List Instruction) :
    (release due emitted).Perm (emitted ++ due.map Instruction.apply) :=
  ((List.reverse_perm _).append_right emitted).trans List.perm_append_comm

theorem await_outer (yard : Yard) (operator : Operator) :
    (yard.await operator).outer = yard.outer := by
  unfold await
  split <;> rfl

theorem held_await (yard : Yard) (operator : Operator) :
    (yard.await operator).held.Perm (.apply operator :: yard.held) := by
  unfold await
  split
  next => exact List.perm_middle
  next =>
    dsimp only [held]
    generalize hdue : yard.waiting.takeWhile
      (fun top => decide (operator.precedence ≤ top.precedence)) = due
    generalize hkept : yard.waiting.dropWhile
      (fun top => decide (operator.precedence ≤ top.precedence)) = kept
    have hwaiting : due ++ kept = yard.waiting := by
      rw [← hdue, ← hkept]
      exact List.takeWhile_append_dropWhile
    rw [← hwaiting]
    refine List.perm_middle.trans (List.Perm.cons _ ?_)
    simpa using (release_perm due yard.emitted).append_right
      ((kept ++ yard.outer.flatten).map Instruction.apply)

theorem held_step {yard next : Yard} {token : Token} (hstep : yard.step token = .ok next) :
    next.held.Perm (token.instruction?.toList ++ yard.held) := by
  rcases token with operand | operator | side
  · obtain rfl := Except.ok.inj hstep
    exact List.Perm.refl _
  · obtain rfl := Except.ok.inj hstep
    exact yard.held_await operator
  · cases side with
    | opening =>
        obtain rfl := Except.ok.inj hstep
        exact List.Perm.refl _
    | closing =>
        unfold step at hstep
        cases houter : yard.outer with
        | nil => simp [houter] at hstep
        | cons around outer =>
            simp only [houter, Except.ok.injEq] at hstep
            subst hstep
            unfold held
            rw [houter]
            simpa [Token.instruction?] using (release_perm yard.waiting yard.emitted).append_right
              ((around ++ outer.flatten).map Instruction.apply)

theorem held_run {yard last : Yard} {tokens : List Token} (hrun : yard.run tokens = .ok last) :
    last.held.Perm (tokens.filterMap Token.instruction? ++ yard.held) := by
  induction tokens generalizing yard with
  | nil =>
      obtain rfl := Except.ok.inj hrun
      exact List.Perm.refl _
  | cons token rest ih =>
      obtain ⟨next, hstep, hrest⟩ := exists_of_run_cons hrun
      refine (ih hrest).trans (((held_step hstep).append_left _).trans ?_)
      cases hinstruction : token.instruction? with
      | none => simp [hinstruction]
      | some instruction =>
          simp [hinstruction, List.perm_middle]

theorem filterMap_operand?_release (due : List Operator) (emitted : List Instruction) :
    (release due emitted).filterMap Instruction.operand? =
      emitted.filterMap Instruction.operand? := by
  have hdue : (due.map Instruction.apply).reverse.filterMap Instruction.operand? = [] := by
    simp [List.filterMap_eq_nil_iff, Instruction.operand?]
  rw [release, List.filterMap_append, hdue, List.nil_append]

/-- An operand goes into the program as soon as it is taken, and nothing else adds one. -/
theorem filterMap_operand?_step {yard next : Yard} {token : Token}
    (hstep : yard.step token = .ok next) :
    next.emitted.filterMap Instruction.operand? =
      token.operand?.toList ++ yard.emitted.filterMap Instruction.operand? := by
  rcases token with operand | operator | _ | _
  · obtain rfl := Except.ok.inj hstep
    rfl
  · obtain rfl := Except.ok.inj hstep
    unfold await
    split
    · rfl
    · exact filterMap_operand?_release _ _
  · obtain rfl := Except.ok.inj hstep
    rfl
  · obtain ⟨emitted, waiting, _ | ⟨around, outer⟩⟩ := yard
    · cases hstep
    · obtain rfl := Except.ok.inj hstep
      exact filterMap_operand?_release _ _

theorem filterMap_operand?_run {yard last : Yard} {tokens : List Token}
    (hrun : yard.run tokens = .ok last) :
    last.emitted.filterMap Instruction.operand? =
      (tokens.filterMap Token.operand?).reverse ++
        yard.emitted.filterMap Instruction.operand? := by
  induction tokens generalizing yard with
  | nil =>
      obtain rfl := Except.ok.inj hrun
      rfl
  | cons token rest ih =>
      obtain ⟨next, hstep, hrest⟩ := exists_of_run_cons hrun
      rw [ih hrest, filterMap_operand?_step hstep]
      cases hoperand : token.operand? <;> simp [hoperand]

/-- The levels that a conversion keeps are the parentheses that are open. A closing parenthesis
without a partner is the only fault on the way. -/
theorem run_depth (yard : Yard) (tokens : List Token) :
    (yard.run tokens).map (fun last => last.outer.length) =
      match Token.depth? yard.outer.length tokens with
      | some depth => .ok depth
      | none => .error (.unmatchedParenthesis .opening) := by
  induction tokens generalizing yard with
  | nil => rfl
  | cons token rest ih =>
      rw [run_cons]
      rcases token with operand | operator | side
      · exact ih _
      · have hrest := ih (yard.await operator)
        rw [await_outer] at hrest
        exact hrest
      · cases side with
        | opening => exact ih ⟨yard.emitted, [], yard.waiting :: yard.outer⟩
        | closing =>
            obtain ⟨emitted, waiting, outer⟩ := yard
            cases outer with
            | nil => rfl
            | cons around outer => exact ih ⟨release waiting emitted, around, outer⟩

theorem depth_of_run {yard last : Yard} {tokens : List Token} (hrun : yard.run tokens = .ok last) :
    Token.depth? yard.outer.length tokens = some last.outer.length := by
  have hdepth := yard.run_depth tokens
  rw [hrun] at hdepth
  cases hfound : Token.depth? yard.outer.length tokens with
  | none =>
      rw [hfound] at hdepth
      cases hdepth
  | some depth =>
      rw [hfound] at hdepth
      exact congrArg some (Except.ok.inj hdepth).symm

end Yard

namespace Program

theorem perm_of_ofTokens {tokens : List Token} {program : Program}
    (hprogram : ofTokens tokens = .ok program) :
    program.instructions.Perm (tokens.filterMap Token.instruction?) := by
  obtain ⟨last, hrun, houter, rfl⟩ := exists_of_ofTokens hprogram
  have hheld := Yard.held_run hrun
  refine (List.reverse_perm _).trans ((Yard.release_perm last.waiting last.emitted).trans ?_)
  simpa [Yard.held, houter] using hheld

/-- The operands in a program stand in the order of the tokens that it was made from. -/
theorem filterMap_operand?_of_ofTokens {tokens : List Token} {program : Program}
    (hprogram : ofTokens tokens = .ok program) :
    program.instructions.filterMap Instruction.operand? = tokens.filterMap Token.operand? := by
  obtain ⟨last, hrun, -, rfl⟩ := exists_of_ofTokens hprogram
  rw [List.filterMap_reverse, Yard.filterMap_operand?_release, Yard.filterMap_operand?_run hrun]
  simp

/-- The token of a step is the one that the step was made from. -/
theorem mem_of_ofTokens {tokens : List Token} {program : Program}
    (hprogram : ofTokens tokens = .ok program) : ∀ token ∈ program.tokens, token ∈ tokens := by
  intro token htoken
  obtain ⟨instruction, hinstruction, rfl⟩ := List.mem_map.mp htoken
  obtain ⟨source, hsource, hstep⟩ := List.mem_filterMap.mp
    ((perm_of_ofTokens hprogram).mem_iff.mp hinstruction)
  rcases source with operand | operator | side
  · obtain rfl := Option.some.inj hstep
    exact hsource
  · obtain rfl := Option.some.inj hstep
    exact hsource
  · cases hstep

/-- Tokens that make a program close all parentheses that they open, and no others. -/
theorem depth_of_ofTokens {tokens : List Token} {program : Program}
    (hprogram : ofTokens tokens = .ok program) : Token.depth? 0 tokens = some 0 := by
  obtain ⟨last, hrun, houter, _⟩ := exists_of_ofTokens hprogram
  have hdepth := Yard.depth_of_run hrun
  rw [houter] at hdepth
  exact hdepth

/-- A conversion that closes a parenthesis too many fails there. -/
theorem ofTokens_of_depth?_eq_none {tokens : List Token} (hdepth : Token.depth? 0 tokens = none) :
    ofTokens tokens = .error (.unmatchedParenthesis .opening) := by
  have hrun := Yard.run_depth {} tokens
  rw [show Token.depth? (Yard.outer {}).length tokens = none from hdepth,
    Except.map_eq_error_iff] at hrun
  rw [ofTokens, hrun]
  rfl

/-- A conversion that has come to the end of its tokens fails if a parenthesis is still open. -/
theorem ofTokens_of_depth?_eq_some {tokens : List Token} {depth : Nat}
    (hdepth : Token.depth? 0 tokens = some depth) :
    if depth = 0 then ∃ program, ofTokens tokens = .ok program
    else ofTokens tokens = .error (.unmatchedParenthesis .closing) := by
  have hrun := Yard.run_depth {} tokens
  rw [show Token.depth? (Yard.outer {}).length tokens = some depth from hdepth,
    Except.map_eq_ok_iff] at hrun
  obtain ⟨⟨emitted, waiting, outer⟩, hlast, rfl⟩ := hrun
  rw [ofTokens, hlast]
  cases outer with
  | nil => exact ⟨_, rfl⟩
  | cons around outer => rfl

/-- A conversion fails only because of a parenthesis without a partner. -/
theorem error_of_ofTokens {tokens : List Token} {error : Error}
    (herror : ofTokens tokens = .error error) : ∃ side, error = .unmatchedParenthesis side := by
  cases hdepth : Token.depth? 0 tokens with
  | none =>
      rw [ofTokens_of_depth?_eq_none hdepth] at herror
      exact ⟨.opening, (Except.error.inj herror).symm⟩
  | some depth =>
      have hend := ofTokens_of_depth?_eq_some hdepth
      split at hend
      · obtain ⟨program, hprogram⟩ := hend
        rw [hprogram] at herror
        cases herror
      · rw [hend] at herror
        exact ⟨.closing, (Except.error.inj herror).symm⟩

end Program

end Formula
