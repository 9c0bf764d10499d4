import Formula.Proofs.Balance
import Formula.Proofs.Engine
import Formula.Proofs.Machine

/-!
# The empty value

A formula has the empty value only if nothing in it has a value. An engine comes to it in two ways,
by the empty text and by a program without steps, and it never comes to it in another way: a
conversion keeps all operands and operators, and a run that has taken a step ends with a number or
fails. What remains are the texts of parentheses that have their partners.
-/

namespace Formula

/-- Parentheses that have their partners, and nothing else. -/
structure Balanced (text : List Char) : Prop where
  parentheses : ∀ c ∈ text, c = '(' ∨ c = ')'
  /-- No beginning of the text closes more than it opens. -/
  not_overcloses : ¬ Overcloses 0 text
  count_eq : text.count '(' = text.count ')'

variable {text : List Char} {tokens : List Token}

/-! ## Texts of parentheses -/

theorem Lexeme.not_parentheses_of_run {characters : List Char}
    (hrun : (run characters).WellFormed) : ¬ ∀ c ∈ characters, c = '(' ∨ c = ')' := by
  intro hparentheses
  obtain ⟨c, hc⟩ := List.exists_mem_of_ne_nil characters hrun.1
  have hne := ne_parenthesis_of_isOperand (hrun.2 c hc)
  rcases hparentheses c hc with h | h
  · exact hne.1 h
  · exact hne.2 h

namespace Token

/-- Tokens become no steps exactly if they are read from nothing but parentheses. -/
theorem filterMap_instruction?_eq_nil_iff (hreading : Reading text tokens) :
    tokens.filterMap instruction? = [] ↔ ∀ c ∈ text, c = '(' ∨ c = ')' := by
  induction hreading with
  | nil => simp
  | @symbol content rest tokens hrest ih =>
      rw [List.forall_mem_cons, ← ih]
      rcases content with operator | _ | _
      · cases operator <;> simp [instruction?, Symbol.character, Operator.character]
      · simp [instruction?, Symbol.character, Side.character]
      · simp [instruction?, Symbol.character, Side.character]
  | @operand characters rest content tokens hdenoted hends hrest ih =>
      refine iff_of_false (by simp [instruction?]) ?_
      intro hparentheses
      exact Lexeme.not_parentheses_of_run hdenoted.wellFormed fun c hc =>
        hparentheses c (List.mem_append_left rest hc)

/-- Parentheses can always be read, since there is no operand that could touch them. -/
theorem exists_tokenize_of_parentheses {text : String}
    (hparentheses : ∀ c ∈ text.toList, c = '(' ∨ c = ')') : ∃ tokens, tokenize text = .ok tokens := by
  have hnone {before characters after : List Char} :
      ¬ MaximalRun text.toList before characters after := by
    intro hrun
    refine Lexeme.not_parentheses_of_run hrun.wellFormed fun c hc => hparentheses c ?_
    simp [hrun.text_eq, hc]
  have hsymbols : ∀ c ∈ text.toList,
      Alphabet.isOperand c = true ∨ c ∈ ['+', '-', '*', '/', '^', '(', ')'] := by
    intro c hc
    rcases hparentheses c hc with rfl | rfl <;> decide
  obtain ⟨tokens, hreads⟩ := Lexeme.exists_reads_split_iff.mpr
    ⟨hsymbols, fun _ _ _ hrun => absurd hrun hnone⟩
  have hcompatible := Lexeme.isChain_compatible_split_iff.mpr fun _ _ _ hrun =>
    absurd hrun hnone
  exact ⟨tokens, tokenize_eq_ok_iff.mpr ⟨hreads, hcompatible⟩⟩

end Token

/-! ## Programs without steps -/

namespace Program

/-- A run that takes a step ends with a number on the stack, or fails. -/
theorem run_eq_empty_iff {program : Program} {bindings : Bindings} :
    program.run bindings = .ok .empty ↔ program = ⟨[]⟩ := by
  constructor
  · intro hrun
    rcases program.run_cases bindings with ⟨hsteps, -⟩ |
      ⟨-, ⟨error, -, herror⟩ | ⟨number, -, hnumber⟩ | ⟨count, hleftover⟩⟩
    · obtain ⟨instructions⟩ := program
      rw [show instructions = [] from hsteps]
    · cases herror.symm.trans hrun
    · cases hnumber.symm.trans hrun
    · cases hleftover.symm.trans hrun
  · rintro rfl
    rfl

/-- The program of a text has no steps exactly if the text is balanced. -/
theorem ofText_eq_nil_iff {text : String} :
    ofText text = .ok ⟨[]⟩ ↔ Balanced text.toList := by
  rw [ofText_eq]
  constructor
  · intro hprogram
    obtain ⟨tokens, htokens, hconverted⟩ := Except.bind_eq_ok_iff.mp hprogram
    have hreading := Token.reading_iff.mpr (Token.tokenize_eq_ok_iff.mp htokens).1
    have hdepth := depth_of_ofTokens hconverted
    refine ⟨?_, ?_, ?_⟩
    · rw [← Token.filterMap_instruction?_eq_nil_iff hreading]
      exact (perm_of_ofTokens hconverted).nil_eq.symm
    · rw [← Token.depth?_eq_none_iff hreading, hdepth]
      simp
    · simpa using Token.count_of_depth? hreading hdepth
  · intro hbalanced
    obtain ⟨tokens, htokens⟩ := Token.exists_tokenize_of_parentheses hbalanced.parentheses
    have hreading := Token.reading_iff.mpr (Token.tokenize_eq_ok_iff.mp htokens).1
    have hsteps := (Token.filterMap_instruction?_eq_nil_iff hreading).mpr hbalanced.parentheses
    obtain ⟨depth, hdepth⟩ := Option.ne_none_iff_exists'.mp
      (mt (Token.depth?_eq_none_iff hreading).mp hbalanced.not_overcloses)
    have hcount := Token.count_of_depth? hreading hdepth
    have hzero : depth = 0 := by
      have hsame := hbalanced.count_eq
      omega
    have hend := ofTokens_of_depth?_eq_some hdepth
    rw [if_pos hzero] at hend
    obtain ⟨⟨instructions⟩, hconverted⟩ := hend
    have hperm := perm_of_ofTokens hconverted
    rw [hsteps] at hperm
    obtain rfl : instructions = [] := hperm.eq_nil
    rw [htokens]
    exact hconverted

end Program

/-! ## Engines -/

namespace Engine

variable (engine : Engine) (text : String) (bindings : Bindings)

theorem outcome_evaluate_eq_empty_iff :
    (engine.evaluate {} text bindings).1.outcome = .ok .empty ↔
      Program.ofText (engine.source text) = .ok ⟨[]⟩ := by
  by_cases hempty : text = ""
  · subst hempty
    rw [engine.source_eq_self (by simp)]
    exact iff_of_true rfl rfl
  · rw [engine.outcome_evaluate {} hempty, engine.outcome_compile_empty, Except.bind_eq_ok_iff]
    simp [Program.run_eq_empty_iff]

theorem balanced_source_iff :
    Balanced (engine.source text).toList ↔ Balanced text.toList ∨
      engine.unwrapBraces = true ∧ ∃ inner, text = braced inner ∧ Balanced inner.toList := by
  constructor
  · intro hbalanced
    unfold source at hbalanced
    split at hbalanced
    next hunwrap =>
      rcases unwrapBraces_eq_self_or text with hself | ⟨inner, rfl⟩
      · rw [hself] at hbalanced
        exact .inl hbalanced
      · rw [unwrapBraces_braced] at hbalanced
        exact .inr ⟨hunwrap, inner, rfl, hbalanced⟩
    next => exact .inl hbalanced
  · rintro (hbalanced | ⟨hunwrap, inner, rfl, hbalanced⟩)
    · rw [engine.source_eq_self]
      · exact hbalanced
      · intro hbrace
        simpa using hbalanced.parentheses _ (List.mem_of_head? hbrace)
    · rw [source, if_pos hunwrap, unwrapBraces_braced]
      exact hbalanced

/-- A new engine finds the empty value exactly for texts of parentheses that have their partners, the
empty text included, and for these in braces if it takes braces off. A text with an operand or an
operator has a number as its value, or none at all. -/
theorem evaluate_eq_empty_iff :
    ((engine.evaluate {} text bindings).1.outcome = .ok .empty ↔ Balanced text.toList ∨
      engine.unwrapBraces = true ∧ ∃ inner, text = braced inner ∧ Balanced inner.toList) ∧
    ((∃ c ∈ text.toList, Alphabet.isOperand c = true ∨ c ∈ ['+', '-', '*', '/', '^']) →
      (∃ number, (engine.evaluate {} text bindings).1.outcome = .ok (.number number)) ∨
        ∃ error, (engine.evaluate {} text bindings).1.outcome = .error error) := by
  have hempty := (engine.outcome_evaluate_eq_empty_iff text bindings).trans
    (Program.ofText_eq_nil_iff.trans (engine.balanced_source_iff text))
  refine ⟨hempty, ?_⟩
  rintro ⟨c, hc, hcontent⟩
  match houtcome : (engine.evaluate {} text bindings).1.outcome with
  | .error error => exact .inr ⟨error, rfl⟩
  | .ok (.number number) => exact .inl ⟨number, rfl⟩
  | .ok .empty =>
      have hother : c = '(' ∨ c = ')' ∨ c = '\x7b' ∨ c = '\x7d' := by
        rcases hempty.mp houtcome with hbalanced | ⟨-, inner, rfl, hbalanced⟩
        · exact (hbalanced.parentheses c hc).imp_right .inl
        · rw [toList_braced, List.mem_cons, List.mem_append, List.mem_singleton] at hc
          rcases hc with hopening | hinner | hclosing
          · exact .inr (.inr (.inl hopening))
          · exact (hbalanced.parentheses c hinner).imp_right .inl
          · exact .inr (.inr (.inr hclosing))
      rcases hother with rfl | rfl | rfl | rfl <;> exact absurd hcontent (by decide)

example : (evaluate {} {} (braced "()(())") Bindings.empty).1.outcome = .ok .empty := by
  decide +kernel

end Engine

end Formula
