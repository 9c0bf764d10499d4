import Formula.Proofs.Conversion
import Formula.Proofs.Engine
import Formula.Proofs.Grammar

/-!
# Evaluating formulas

The passes from a text to its value, each of which works on a form of its own, together do what the
grammar says: the text of a derivation has the value of the tree that the derivation stands for. The
main statement is about every derivation, every binding of names and every setting of an engine.
-/

namespace Formula

/-- How tightly the operators bind that a phrase has outside of parentheses. A factor has none. -/
def Phrase.precedence : Phrase → Nat
  | expression => 2
  | term => 3
  | factor => 4

namespace Derivation

variable {phrase : Phrase}

theorem converts_tokens (derivation : Derivation phrase) :
    Yard.Converts phrase.precedence derivation.tokens derivation.tree.postorder := by
  induction derivation with
  | additive left operator isAdditive right ihleft ihright =>
      have hprecedence : operator.precedence = 2 := by
        simp only [List.mem_cons, List.not_mem_nil, or_false] at isAdditive
        rcases isAdditive with rfl | rfl <;> rfl
      exact Yard.Converts.binary hprecedence ihleft ihright
  | ofTerm term ih => exact ih.loosen
  | multiplicative left operator isMultiplicative right ihleft ihright =>
      have hprecedence : operator.precedence = 3 := by
        simp only [List.mem_cons, List.not_mem_nil, or_false] at isMultiplicative
        rcases isMultiplicative with rfl | rfl | rfl <;> rfl
      exact Yard.Converts.binary hprecedence ihleft ihright
  | ofFactor factor ih => exact ih.loosen
  | numeral content => exact Yard.converts_operand _ _
  | name content => exact Yard.converts_operand _ _
  | group inner ih => exact ih.group

/-- The program of the text of a derivation evaluates the tree of the derivation. -/
theorem ofText_text (derivation : Derivation phrase) :
    Program.ofText derivation.text = .ok ⟨derivation.tree.postorder⟩ := by
  rw [Program.ofText_eq, tokenize_text]
  exact derivation.converts_tokens.ofTokens

theorem text_ne_empty (derivation : Derivation phrase) : derivation.text ≠ "" := by
  intro hempty
  have hprogram := derivation.ofText_text
  rw [hempty] at hprogram
  have hnil : ([] : List Instruction) = derivation.tree.postorder :=
    congrArg Program.instructions (Except.ok.inj hprogram)
  exact derivation.tree.postorder_ne_nil hnil.symm

theorem head?_text (derivation : Derivation phrase) :
    derivation.text.toList.head? ≠ some '\x7b' := by
  intro hbrace
  have hprogram := derivation.ofText_text
  rw [Program.ofText_eq_error_of_brace hbrace] at hprogram
  cases hprogram

/-- A new engine evaluates the text of every derivation as its tree says, with or without braces
around the text if it takes them off: to the value of the tree if all of its names are bound, and
otherwise to an error that names the leftmost one that is not. -/
theorem evaluate_text (derivation : Derivation .expression) (engine : Engine)
    (bindings : Bindings) :
    (engine.evaluate {} derivation.text bindings).1.outcome =
        derivation.tree.outcome bindings ∧
      (Engine.evaluate { engine with unwrapBraces := true } {} (braced derivation.text)
        bindings).1.outcome = derivation.tree.outcome bindings := by
  have hanswer (engine : Engine) (text : String) (hne : text ≠ "")
      (hsource : engine.source text = derivation.text) :
      (engine.evaluate {} text bindings).1.outcome = derivation.tree.outcome bindings := by
    rw [engine.outcome_evaluate {} hne, engine.outcome_compile_empty, hsource,
      derivation.ofText_text]
    exact derivation.tree.run_postorder bindings
  constructor
  · refine hanswer engine derivation.text derivation.text_ne_empty ?_
    unfold Engine.source
    split
    · exact unwrapBraces_eq_self derivation.head?_text
    · rfl
  · exact hanswer _ _ (braced_ne_empty derivation.text) (unwrapBraces_braced derivation.text)

end Derivation

end Formula
