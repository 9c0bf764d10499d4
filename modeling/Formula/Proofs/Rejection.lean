import Formula.Proofs.Acceptance

/-!
# What becomes of texts that are no formulas

A text that compiles need not derive from the grammar, as neither its tokens nor its program keep
track of where operators stand. If no two parentheses meet back to back in it, nothing of this kind
remains hidden: an operand is missing somewhere, and the run of the program finds too few values for
an operator. It never leaves values over, since no operands meet without an operator between them.
-/

namespace Formula

/-! ## Empty groups -/

namespace Token

/-- An opening parenthesis and a closing one right behind it. -/
def EmptyGroup (left right : Token) : Prop :=
  left = .symbol (.parenthesis .opening) ∧ right = .symbol (.parenthesis .closing)

/-- Parentheses alone, none of which closes right behind one that opens, only go on opening. -/
theorem depth?_ne_zero {tokens : List Token} {depth : Nat}
    (hparens : ∀ token ∈ tokens, token.instruction? = none)
    (hchain : (.symbol (.parenthesis .opening) :: tokens).IsChain
      fun left right => ¬ EmptyGroup left right) :
    depth? (depth + 1) tokens ≠ some 0 := by
  induction tokens generalizing depth with
  | nil => simp [depth?]
  | cons token rest ih =>
      obtain ⟨hparen, hrest⟩ := List.forall_mem_cons.mp hparens
      obtain ⟨hfirst, htail⟩ := List.isChain_cons_cons.mp hchain
      rcases token with operand | operator | side
      · cases hparen
      · cases hparen
      · cases side with
        | opening => exact ih hrest htail
        | closing => exact absurd ⟨rfl, rfl⟩ hfirst

/-- Tokens that close all parentheses they open and hold no empty group hold something else. -/
theorem exists_instruction {tokens : List Token} (hne : tokens ≠ [])
    (hdepth : depth? 0 tokens = some 0)
    (hchain : tokens.IsChain fun left right => ¬ EmptyGroup left right) :
    ∃ token ∈ tokens, token.instruction? ≠ none := by
  by_contra hnone
  push Not at hnone
  cases tokens with
  | nil => exact hne rfl
  | cons token rest =>
      obtain ⟨hparen, hrest⟩ := List.forall_mem_cons.mp hnone
      rcases token with operand | operator | side
      · cases hparen
      · cases hparen
      · cases side with
        | opening => exact depth?_ne_zero hrest hchain hdepth
        | closing => cases hdepth

end Token

/-- The tokens of a text hold an empty group only where the text does. -/
theorem isChain_not_emptyGroup {text : String} {tokens : List Token}
    (htokens : Token.tokenize text = .ok tokens) (hempty : ¬ ['(', ')'] <:+: text.toList) :
    tokens.IsChain fun left right => ¬ Token.EmptyGroup left right := by
  obtain ⟨hreads, _⟩ := Token.tokenize_eq_ok_iff.mp htokens
  have hpieces : (Lexeme.split text.toList).IsChain fun left right =>
      ¬ (left = .symbol (.parenthesis .opening) ∧ right = .symbol (.parenthesis .closing)) := by
    rw [List.isChain_iff_forall_rel_of_append_cons_cons]
    rintro _ _ before after hsplit ⟨rfl, rfl⟩
    exact hempty (Lexeme.infix_of_split hsplit)
  refine Token.isChain_of_forall₂ hreads ?_ hpieces
  rintro piece piece' _ _ hread hread' hpair ⟨rfl, rfl⟩
  cases hread
  cases hread'
  exact hpair ⟨rfl, rfl⟩

/-- A text with characters that compiles has steps to run, unless it holds an empty group. -/
theorem instructions_ne_nil {text : String} {program : Program} (hne : text ≠ "")
    (hprogram : Program.ofText text = .ok program) (hempty : ¬ ['(', ')'] <:+: text.toList) :
    program.instructions ≠ [] := by
  obtain ⟨tokens, htokens, hconverted⟩ := exists_tokens_of_ofText hprogram
  have hsome : tokens ≠ [] := by
    rintro rfl
    obtain ⟨hreads, _⟩ := Token.tokenize_eq_ok_iff.mp htokens
    have hspell := Lexeme.spell_split text.toList
    rw [List.forall₂_nil_right_iff.mp hreads] at hspell
    exact hne (String.toList_inj.mp hspell.symm)
  obtain ⟨token, htoken, hstep⟩ := Token.exists_instruction hsome
    (Program.depth_of_ofTokens hconverted) (isChain_not_emptyGroup htokens hempty)
  obtain ⟨instruction, hinstruction⟩ := Option.ne_none_iff_exists'.mp hstep
  have hmem : instruction ∈ program.instructions := (Program.perm_of_ofTokens hconverted).mem_iff.mpr
    (List.mem_filterMap.mpr ⟨token, htoken, hinstruction⟩)
  exact List.ne_nil_of_mem hmem

/-! ## Runs -/

/-- Where groups do not meet, a program leaves at most one value. -/
theorem surplus_le_one {text : String} {program : Program}
    (hprogram : Program.ofText text = .ok program) (hgroups : ¬ [')', '('] <:+: text.toList) :
    Instruction.surplus program.instructions ≤ 1 := by
  obtain ⟨tokens, htokens, hconverted⟩ := exists_tokens_of_ofText hprogram
  obtain ⟨hreads, _⟩ := Token.tokenize_eq_ok_iff.mp htokens
  rw [← Token.surplus_of_ofTokens hconverted]
  exact (Token.surplus_le hreads ((isChain_separate_iff htokens).mpr hgroups)).1

theorem Tree.filterMap_name?_postorder (tree : Tree) :
    tree.postorder.filterMap Instruction.name? = tree.names := by
  induction tree with
  | leaf operand => cases operand <;> rfl
  | node operator left right ihleft ihright =>
      simp [postorder, names, ihleft, ihright, Instruction.name?]

/-- A text that derives from the grammar has a number as its value when all its names are bound. -/
theorem Derivable.exists_number {text : String} {program : Program} {bindings : Bindings}
    (hderivable : Derivable text) (hprogram : Program.ofText text = .ok program)
    (hbound : ∀ name ∈ program.names, (bindings name).isSome = true) :
    ∃ number, program.run bindings = .ok (.number number) := by
  obtain ⟨derivation, rfl⟩ := hderivable
  obtain rfl := Except.ok.inj (derivation.ofText_text.symm.trans hprogram)
  have hnone : (derivation.tree.names.find? fun name => (bindings name).isNone) = none := by
    refine List.find?_eq_none.mpr fun name hname => ?_
    rw [← derivation.tree.filterMap_name?_postorder] at hname
    simpa [← Option.isSome_iff_ne_none] using hbound name (Program.mem_names_iff.mpr hname)
  refine ⟨derivation.tree.value bindings.valuation, ?_⟩
  rw [derivation.tree.run_postorder, Tree.outcome, hnone]

/-- A text that compiles and does not derive from the grammar runs out of values when all its names
are bound, if no two parentheses meet back to back in it. -/
theorem exists_underflow {text : String} {program : Program} {bindings : Bindings}
    (hne : text ≠ "") (hprogram : Program.ofText text = .ok program)
    (hempty : ¬ ['(', ')'] <:+: text.toList) (hgroups : ¬ [')', '('] <:+: text.toList)
    (hbound : ∀ name ∈ program.names, (bindings name).isSome = true) (hnot : ¬ Derivable text) :
    ∃ operator, program.run bindings = .error (program.underflow operator) := by
  have hsteps := instructions_ne_nil hne hprogram hempty
  unfold Program.run
  rw [if_neg (by simpa [Program.isEmpty] using hsteps)]
  cases hrun : program.instructions.foldlM (program.step bindings) [] with
  | error error =>
      rcases Program.error_of_foldlM_step hrun with ⟨name, hname, hunbound, _⟩ | ⟨operator, rfl⟩
      · have hsome := hbound name (Program.mem_names_iff.mpr hname)
        simp [hunbound] at hsome
      · exact ⟨operator, rfl⟩
  | ok last =>
      -- At most one value is left, and not none at all, so that the text would be a formula.
      have hlength := Program.length_of_foldlM_step hrun
      have hpos := List.length_pos_iff.mpr (Program.ne_nil_of_foldlM_step hrun (.inr hsteps))
      have hle := surplus_le_one hprogram hgroups
      rw [List.length_nil] at hlength
      have hone : Instruction.surplus program.instructions = 1 := by omega
      exact absurd (derivable_of_surplus hprogram hone hgroups) hnot

/-- A text with characters that compiles, in which no two parentheses meet back to back, is a
formula exactly if it has a number as its value when all its names are bound. Otherwise an operator
finds too few values. -/
theorem Engine.evaluate_number_or_underflow (engine : Engine) {text : String} {program : Program}
    (bindings : Bindings) (hne : text ≠ "") (hprogram : Program.ofText text = .ok program)
    (hempty : ¬ ['(', ')'] <:+: text.toList) (hgroups : ¬ [')', '('] <:+: text.toList)
    (hbound : ∀ name ∈ program.names, (bindings name).isSome = true) :
    (Derivable text → ∃ number,
      (engine.evaluate {} text bindings).1.outcome = .ok (.number number)) ∧
    (¬ Derivable text → ∃ operator,
      (engine.evaluate {} text bindings).1.outcome = .error (program.underflow operator)) := by
  rw [engine.outcome_evaluate_of_ofText hprogram]
  constructor
  · intro hderivable
    exact hderivable.exists_number hprogram hbound
  · intro hnot
    exact exists_underflow hne hprogram hempty hgroups hbound hnot

/-- A product without its right side is no formula: there is no value but an error, although all
parentheses are paired and all names are bound. -/
theorem Engine.evaluate_number_or_underflow_incomplete :
    (evaluate {} {} "(x*)-y" fun _ => some 5).1.outcome =
        .error (.internal "stack underflow at operator '*' in `x * y -`") ∧
      ¬ Derivable "(x*)-y" := by
  have herror : (evaluate {} {} "(x*)-y" fun _ => some 5).1.outcome =
      .error (.internal "stack underflow at operator '*' in `x * y -`") := by decide +kernel
  have hprogram : Program.ofText "(x*)-y" = .ok ⟨[.push (.name "x"), .apply .multiply,
      .push (.name "y"), .apply .subtract]⟩ := by decide +kernel
  refine ⟨herror, fun hderivable => ?_⟩
  obtain ⟨number, hnumber⟩ := (evaluate_number_or_underflow {} (fun _ => some 5) (by decide)
    hprogram (by decide +kernel) (by decide +kernel) (fun _ _ => rfl)).1 hderivable
  rw [herror] at hnumber
  cases hnumber

end Formula
