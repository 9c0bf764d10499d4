import Formula.Proofs.Conservation
import Formula.Proofs.Siding
import Formula.Proofs.Substitution

/-!
# Groups among tokens

A conversion takes a group of tokens whose inside makes a program by itself as it takes an operand:
the steps of the group go into the program at once, and what waits and what is open stay as they
are, whatever they may be. What comes later does not depend on what the program holds already.
Therefore the tokens around a group settle, without the group, whether there is a program, and which
steps stand before and behind those of the group.
-/

namespace Formula

namespace Yard

/-- A row of tokens puts a block of steps into the program at once, in every state, and does nothing
else. -/
def Emits (row : List Token) (block : List Instruction) : Prop :=
  ∀ yard : Yard, yard.run row = .ok { yard with emitted := block.reverse ++ yard.emitted }

theorem emits_operand (operand : Operand) : Emits [.operand operand] [.push operand] :=
  fun _ => rfl

theorem emits_group {inside : List Token} {block : Program}
    (hblock : Program.ofTokens inside = .ok block) :
    Emits (Token.group inside) block.instructions :=
  run_group hblock

/-- On a single stack, such a row leaves all of the stack as it was. -/
theorem Emits.run_siding {row : List Token} {block : List Instruction} (hemits : Emits row block)
    (yard : Yard) :
    yard.siding.run row =
      .ok { yard.siding with
        emitted := (block.map Instruction.token).reverse ++ yard.siding.emitted } := by
  rw [Yard.run_siding, hemits yard]
  change Except.ok (Siding.mk _ _) = _
  rw [List.map_append, List.map_reverse]
  rfl

end Yard

namespace Program

open Yard (Emits)

variable (before after : List Token)

/-- What stands behind such a row is taken as if there were nothing in the program. -/
theorem ofTokens_of_emits {yard : Yard} (hbefore : Yard.run {} before = .ok yard)
    {row : List Token} {block : List Instruction} (hemits : Emits row block) :
    ofTokens (before ++ row ++ after) =
      (Yard.run ⟨[], yard.waiting, yard.outer⟩ after).bind fun last =>
        (last.above (block.reverse ++ yard.emitted) []).finish := by
  have hrow : Yard.run {} (before ++ row) =
      .ok (Yard.above ⟨[], yard.waiting, yard.outer⟩ (block.reverse ++ yard.emitted) []) := by
    rw [Yard.run_append, hbefore]
    change yard.run row = _
    rw [hemits, Yard.above, List.append_nil]
    rfl
  rw [ofTokens, Yard.run_append, hrow]
  change (Yard.run _ after).bind _ = _
  rw [Yard.run_above_emitted]
  cases Yard.run ⟨[], yard.waiting, yard.outer⟩ after <;> rfl

/-- Tokens around a place either fail alike whatever row of this kind is put there, or put their own
steps before and behind those of the row. -/
theorem cases_of_emits :
    (∃ error, ∀ row block, Emits row block →
      ofTokens (before ++ row ++ after) = .error error) ∨
    ∃ earlier later : List Instruction,
      earlier.filterMap Instruction.operand? = before.filterMap Token.operand? ∧
      later.filterMap Instruction.operand? = after.filterMap Token.operand? ∧
      ∀ row block, Emits row block →
        ofTokens (before ++ row ++ after) = .ok ⟨earlier ++ block ++ later⟩ := by
  cases hbefore : Yard.run {} before with
  | error error =>
      refine .inl ⟨error, fun row block _ => ?_⟩
      rw [ofTokens, List.append_assoc, Yard.run_append, hbefore]
      rfl
  | ok yard =>
      cases hafter : Yard.run ⟨[], yard.waiting, yard.outer⟩ after with
      | error error =>
          refine .inl ⟨error, fun row block hemits => ?_⟩
          rw [ofTokens_of_emits before after hbefore hemits, hafter]
          rfl
      | ok last =>
          obtain ⟨emitted, waiting, _ | ⟨around, outer⟩⟩ := last
          · refine .inr ⟨yard.emitted.reverse, (Yard.release waiting emitted).reverse, ?_, ?_, ?_⟩
            · rw [List.filterMap_reverse, Yard.filterMap_operand?_run hbefore]
              simp
            · rw [List.filterMap_reverse, Yard.filterMap_operand?_release,
                Yard.filterMap_operand?_run hafter]
              simp
            · intro row block hemits
              rw [ofTokens_of_emits before after hbefore hemits, hafter]
              simp [Except.bind, Yard.above, Yard.finish, Yard.release]
          · -- A parenthesis is still open at the end, whatever the row.
            refine .inl ⟨.unmatchedParenthesis .closing, fun row block hemits => ?_⟩
            rw [ofTokens_of_emits before after hbefore hemits, hafter]
            rfl

/-- A group takes the place of an operand. Tokens before and after a place either fail with one
error for all operands that are put there, and for all groups whose inside makes a program. Or there
are steps to stand before and behind that of the operand, and before and behind the steps of a group
instead; the place among the operands stays the same. Parentheses around all tokens change nothing,
and whatever the tokens before a group leave on the stack of a conversion, the group leaves it
there. -/
theorem ofTokens_group :
    ((∃ error,
        (∀ operand, ofTokens (before ++ [.operand operand] ++ after) = .error error) ∧
        ∀ inside block, ofTokens inside = .ok block →
          ofTokens (before ++ Token.group inside ++ after) = .error error) ∨
      ∃ earlier later : List Instruction,
        earlier.filterMap Instruction.operand? = before.filterMap Token.operand? ∧
        later.filterMap Instruction.operand? = after.filterMap Token.operand? ∧
        (∀ operand, ofTokens (before ++ [.operand operand] ++ after) =
          .ok ⟨earlier ++ [.push operand] ++ later⟩) ∧
        ∀ inside block, ofTokens inside = .ok block →
          ofTokens (before ++ Token.group inside ++ after) =
            .ok ⟨earlier ++ block.instructions ++ later⟩) ∧
    ∀ inside block, ofTokens inside = .ok block →
      ofTokens (Token.group inside) = .ok block ∧
      ∀ siding, Siding.run {} before = .ok siding →
        siding.run (Token.group inside) =
          .ok { siding with emitted := block.tokens.reverse ++ siding.emitted } := by
  constructor
  · rcases cases_of_emits before after with
      ⟨error, herror⟩ | ⟨earlier, later, hearlier, hlater, hok⟩
    · exact .inl ⟨error, fun operand => herror _ _ (Yard.emits_operand operand),
        fun inside block hblock => herror _ _ (Yard.emits_group hblock)⟩
    · exact .inr ⟨earlier, later, hearlier, hlater,
        fun operand => hok _ _ (Yard.emits_operand operand),
        fun inside block hblock => hok _ _ (Yard.emits_group hblock)⟩
  · intro inside block hblock
    have hemits := Yard.emits_group hblock
    constructor
    · rw [ofTokens, hemits]
      simp [Except.bind, Yard.finish, Yard.release]
    · intro siding hrun
      obtain ⟨yard, -, rfl⟩ := Siding.exists_yard_of_run hrun
      exact hemits.run_siding yard

-- The tokens around a group need not be in order, and those inside of it need not either.
example : (Token.tokenize "a-*(b*)").bind ofTokens = .ok ⟨[.push (.name "a"), .push (.name "b"),
    .apply .multiply, .apply .multiply, .apply .subtract]⟩ := by
  decide +kernel

end Program

end Formula
