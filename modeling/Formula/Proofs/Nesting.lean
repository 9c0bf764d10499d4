import Formula.Proofs.Conservation
import Formula.Proofs.Siding

/-!
# Parentheses among tokens

Whether tokens make a program depends on their parentheses alone. No beginning of them may close
more parentheses than it opens, and all that are opened must be closed in the end. This holds of
all rows of tokens, also of those that no text is read as.
-/

namespace Formula

namespace Token

/-- How many parentheses of one side there are among tokens. -/
def parentheses (side : Side) (tokens : List Token) : Nat :=
  tokens.count (.symbol (.parenthesis side))

/-- Some beginning of the tokens closes more parentheses than are opened in it or have been open
before. -/
def ClosesTooMany (depth : Nat) (tokens : List Token) : Prop :=
  ∃ start, start <+: tokens ∧ depth + parentheses .opening start < parentheses .closing start

variable {depth : Nat} {token : Token} {tokens : List Token}

theorem parentheses_cons_self (side : Side) (tokens : List Token) :
    parentheses side (.symbol (.parenthesis side) :: tokens) = parentheses side tokens + 1 :=
  List.count_cons_self

theorem parentheses_cons_of_ne {side : Side} (hne : token ≠ .symbol (.parenthesis side))
    (tokens : List Token) : parentheses side (token :: tokens) = parentheses side tokens :=
  List.count_cons_of_ne hne

theorem closesTooMany_cons_iff :
    ClosesTooMany depth (token :: tokens) ↔ ∃ start, start <+: tokens ∧
      depth + parentheses .opening (token :: start) < parentheses .closing (token :: start) :=
  exists_prefix_cons_iff (by simp [parentheses])

theorem depth?_eq_none_iff_closesTooMany :
    depth? depth tokens = none ↔ ClosesTooMany depth tokens := by
  induction tokens generalizing depth with
  | nil => simp [depth?, ClosesTooMany, parentheses]
  | cons token rest ih =>
      rw [closesTooMany_cons_iff]
      rcases token with operand | operator | _ | _
      · rw [depth?_operand, ih]
        simp [ClosesTooMany, parentheses_cons_of_ne]
      · rw [depth?_operator, ih]
        simp [ClosesTooMany, parentheses_cons_of_ne]
      · refine ih.trans (exists_congr fun start => and_congr_right fun _ => ?_)
        rw [parentheses_cons_self, parentheses_cons_of_ne (by simp)]
        omega
      · cases depth with
        | zero => exact iff_of_true rfl ⟨[], List.nil_prefix, by decide⟩
        | succ depth =>
            refine ih.trans (exists_congr fun start => and_congr_right fun _ => ?_)
            rw [parentheses_cons_self, parentheses_cons_of_ne (by simp)]
            omega

theorem parentheses_of_depth? {last : Nat} (hdepth : depth? depth tokens = some last) :
    depth + parentheses .opening tokens = last + parentheses .closing tokens := by
  induction tokens generalizing depth with
  | nil => simpa [depth?, parentheses] using hdepth
  | cons token rest ih =>
      rcases token with operand | operator | _ | _
      · rw [depth?_operand] at hdepth
        simpa [parentheses_cons_of_ne] using ih hdepth
      · rw [depth?_operator] at hdepth
        simpa [parentheses_cons_of_ne] using ih hdepth
      · have hlater := ih (hdepth : depth? (depth + 1) rest = some last)
        rw [parentheses_cons_self, parentheses_cons_of_ne (by simp)]
        omega
      · cases depth with
        | zero => cases hdepth
        | succ depth =>
            have hlater := ih (hdepth : depth? depth rest = some last)
            rw [parentheses_cons_self, parentheses_cons_of_ne (by simp)]
            omega

theorem not_closesTooMany_iff :
    ¬ ClosesTooMany 0 tokens ↔
      ∀ start, start <+: tokens → parentheses .closing start ≤ parentheses .opening start := by
  simp [ClosesTooMany]

end Token

/-- Tokens make a program exactly if none of their beginnings closes more parentheses than it opens
and all of them together close as many as they open. If some beginning closes more, an opening
parenthesis is missing, and otherwise, if all of them together open more, a closing one is. A
conversion that keeps everything on one stack comes to the same. -/
theorem Program.ofTokens_nesting (tokens : List Token) :
    ((∃ program, ofTokens tokens = .ok program) ↔
      (∀ start, start <+: tokens →
        Token.parentheses .closing start ≤ Token.parentheses .opening start) ∧
      Token.parentheses .opening tokens = Token.parentheses .closing tokens) ∧
    (ofTokens tokens = .error (.unmatchedParenthesis .opening) ↔
      ∃ start, start <+: tokens ∧
        Token.parentheses .opening start < Token.parentheses .closing start) ∧
    (ofTokens tokens = .error (.unmatchedParenthesis .closing) ↔
      (∀ start, start <+: tokens →
        Token.parentheses .closing start ≤ Token.parentheses .opening start) ∧
      Token.parentheses .closing tokens < Token.parentheses .opening tokens) ∧
    Siding.convert tokens = (ofTokens tokens).map Program.tokens := by
  have hover : (∃ start, start <+: tokens ∧
      Token.parentheses .opening start < Token.parentheses .closing start) ↔
        Token.ClosesTooMany 0 tokens := by simp [Token.ClosesTooMany]
  rw [hover, ← Token.not_closesTooMany_iff, ← Token.depth?_eq_none_iff_closesTooMany,
    Siding.convert_eq]
  cases hdepth : Token.depth? 0 tokens with
  | none => simp [ofTokens_of_depth?_eq_none hdepth]
  | some depth =>
      have hcount := Token.parentheses_of_depth? hdepth
      have hend := ofTokens_of_depth?_eq_some hdepth
      split at hend
      next hzero =>
        obtain ⟨program, hprogram⟩ := hend
        simp [hprogram]
        omega
      next hopen =>
        simp [hend]
        omega

end Formula
