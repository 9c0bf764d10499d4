import Formula.Proofs.Conservation
import Formula.Proofs.Evaluation
import Formula.Proofs.Machine

/-!
# Which texts are given a number

Neither the tokens of a text nor its program keep track of where operators stand. What is checked is
that operands do not touch parentheses from outside, that parentheses are paired, and that one value
is left at the end. These checks find everything that is not a formula, except for groups that meet
back to back: a text that is given a number derives from the grammar exactly if no closing
parenthesis stands right before an opening one.
-/

namespace Formula

/-- A text that derives from the grammar. -/
def Derivable (text : String) : Prop :=
  ∃ derivation : Derivation .expression, derivation.text = text

/-- How many values tokens leave: the number of operands less that of operators. -/
def Token.surplus (tokens : List Token) : Int :=
  Instruction.surplus (tokens.filterMap Token.instruction?)

namespace Derivation

/-! ## Rebuilding a derivation -/

/-- What comes before a factor, as far as the nearest parenthesis that is open: an expression with
an additive operator, a term with another one, both, or neither. -/
structure Lead where
  expression : Option (Derivation .expression ×
    { operator : Operator // operator ∈ [Operator.add, .subtract] })
  term : Option (Derivation .term ×
    { operator : Operator // operator ∈ [Operator.multiply, .divide, .power] })

namespace Lead

def pieces (lead : Lead) : List Lexeme :=
  (lead.expression.elim [] fun left => left.1.pieces ++ [.symbol (.operator left.2)]) ++
    (lead.term.elim [] fun left => left.1.pieces ++ [.symbol (.operator left.2)])

def finishTerm (lead : Lead) (factor : Derivation .factor) : Derivation .term :=
  match lead.term with
  | none => .ofFactor factor
  | some (left, operator) => .multiplicative left operator operator.2 factor

def finish (lead : Lead) (factor : Derivation .factor) : Derivation .expression :=
  match lead.expression with
  | none => .ofTerm (lead.finishTerm factor)
  | some (left, operator) => .additive left operator operator.2 (lead.finishTerm factor)

theorem pieces_finish (lead : Lead) (factor : Derivation .factor) :
    (lead.finish factor).pieces = lead.pieces ++ factor.pieces := by
  rcases lead with ⟨_ | ⟨left, operator⟩, _ | ⟨left', operator'⟩⟩ <;>
    simp [finish, finishTerm, pieces, Derivation.pieces]

/-- The lead that a factor and an operator make. An additive operator ends all that came before, and
another one ends only the term. -/
def extend (lead : Lead) (factor : Derivation .factor) (operator : Operator) : Lead :=
  if hadditive : operator ∈ [Operator.add, .subtract] then
    ⟨some (lead.finish factor, ⟨operator, hadditive⟩), none⟩
  else
    ⟨lead.expression, some (lead.finishTerm factor, ⟨operator, by cases operator <;> simp_all⟩)⟩

theorem pieces_extend (lead : Lead) (factor : Derivation .factor) (operator : Operator) :
    (lead.extend factor operator).pieces =
      lead.pieces ++ (factor.pieces ++ [.symbol (.operator operator)]) := by
  unfold extend
  split
  · simp [pieces, pieces_finish]
  · rcases lead with ⟨_ | ⟨left, operator⟩, _ | ⟨left', operator'⟩⟩ <;>
      simp [finishTerm, pieces, Derivation.pieces]

/-- The pieces of leads that parentheses keep apart, from the inside to the outside. -/
def spine : List Lead → List Lexeme
  | [] => []
  | lead :: outer => spine outer ++ (lead.pieces ++ [.symbol (.parenthesis .opening)])

end Lead

end Derivation

open Lexeme (Reads)

theorem Token.surplus_cons_none {token : Token} (htoken : token.instruction? = none)
    (rest : List Token) : Token.surplus (token :: rest) = Token.surplus rest := by
  simp [Token.surplus, htoken]

theorem Token.surplus_cons_some {token : Token} {instruction : Instruction}
    (htoken : token.instruction? = some instruction) (rest : List Token) :
    Token.surplus (token :: rest) = instruction.gain + Token.surplus rest := by
  simp [Token.surplus, Instruction.surplus, htoken]

/-- A program leaves as many values as its tokens. -/
theorem Token.surplus_of_ofTokens {tokens : List Token} {program : Program}
    (hprogram : Program.ofTokens tokens = .ok program) :
    Token.surplus tokens = Instruction.surplus program.instructions :=
  (((Program.perm_of_ofTokens hprogram).map Instruction.gain).sum_eq).symm

/-- Where operands and groups do not meet without an operator, there is at most one operand more
than operators, and none more behind an operand or a group. -/
theorem Token.surplus_le {pieces : List Lexeme} {tokens : List Token}
    (hreads : List.Forall₂ Reads pieces tokens) (hchain : pieces.IsChain Lexeme.Separate) :
    Token.surplus tokens ≤ 1 ∧
      ((∀ piece ∈ pieces.head?, piece.opens = false) → Token.surplus tokens ≤ 0) := by
  induction hreads with
  | nil => exact ⟨by decide, fun _ => by decide⟩
  | @cons piece token pieces tokens hread hrest ih =>
      obtain ⟨hseparate, htail⟩ := List.isChain_cons.mp hchain
      obtain ⟨hone, hzero⟩ := ih htail
      cases hread with
      | @run characters content hcontent =>
          rw [surplus_cons_some rfl]
          have hle := hzero fun next hnext => (hseparate next hnext).opens_eq_false rfl
          refine ⟨by simp only [Instruction.gain]; omega, fun hhead => ?_⟩
          exact absurd (hhead _ rfl) (by simp [Lexeme.opens])
      | symbol content =>
          rcases content with operator | side | _
          · rw [surplus_cons_some rfl]
            simp only [Instruction.gain]
            exact ⟨by omega, fun _ => by omega⟩
          · rw [surplus_cons_none rfl]
            refine ⟨hone, fun hhead => ?_⟩
            exact absurd (hhead _ rfl) (by simp [Lexeme.opens])
          · rw [surplus_cons_none rfl]
            have hle := hzero fun next hnext => (hseparate next hnext).opens_eq_false rfl
            exact ⟨by omega, fun _ => hle⟩

namespace Derivation

theorem exists_factor {characters : List Char} {content : Operand}
    (hwell : (Lexeme.run characters).WellFormed) (hread : Operand.read characters = .ok content) :
    ∃ factor : Derivation .factor, factor.pieces = [.run characters] := by
  obtain ⟨hne, hoperand⟩ := hwell
  unfold Operand.read at hread
  split at hread
  next hstart =>
    cases hnumber : Numeral.read? characters with
    | none => simp [hnumber] at hread
    | some value =>
        obtain ⟨content, rfl, _⟩ := (Numeral.read?_eq_some_iff hoperand hstart).mp hnumber
        exact ⟨.numeral content, rfl⟩
  next hstart =>
    exact ⟨.name ⟨characters, hne, hoperand, Bool.eq_false_iff.mpr hstart⟩, rfl⟩

/-- Pieces in which operands and groups are kept apart by operators, parentheses are paired and
operators are as many as they have to be complete what came before them to a derivation. The first
part is about pieces where a factor is due, and the second one about pieces behind a factor. -/
theorem exists_completion {pieces : List Lexeme} {tokens : List Token}
    (hreads : List.Forall₂ Reads pieces tokens) (hwell : ∀ piece ∈ pieces, piece.WellFormed)
    (hchain : pieces.IsChain Lexeme.Separate) :
    (∀ (lead : Lead) (outer : List Lead), Token.depth? outer.length tokens = some 0 →
      Token.surplus tokens = 1 → ∃ derivation : Derivation .expression,
        derivation.pieces = Lead.spine outer ++ (lead.pieces ++ pieces)) ∧
    ∀ (lead : Lead) (factor : Derivation .factor) (outer : List Lead),
      (∀ piece ∈ pieces.head?, piece.opens = false) → Token.depth? outer.length tokens = some 0 →
      Token.surplus tokens = 0 → ∃ derivation : Derivation .expression,
        derivation.pieces = Lead.spine outer ++ (lead.pieces ++ (factor.pieces ++ pieces)) := by
  induction hreads with
  | nil =>
      refine ⟨fun _ _ _ hsurplus => absurd hsurplus (by decide), ?_⟩
      intro lead factor outer _ hdepth _
      have houter : outer = [] := List.length_eq_zero_iff.mp (Option.some.inj hdepth)
      subst houter
      exact ⟨lead.finish factor, by simp [Lead.pieces_finish, Lead.spine]⟩
  | @cons piece token pieces tokens hread hrest ih =>
      obtain ⟨hseparate, htail⟩ := List.isChain_cons.mp hchain
      obtain ⟨hpiece, hpieces⟩ := List.forall_mem_cons.mp hwell
      obtain ⟨hdue, hbehind⟩ := ih hpieces htail
      obtain ⟨hone, hzero⟩ := Token.surplus_le hrest htail
      cases hread with
      | @run characters content hcontent =>
          rw [Token.surplus_cons_some rfl]
          refine ⟨fun lead outer hdepth hsurplus => ?_, fun _ _ _ hhead => ?_⟩
          · -- The operand is the factor that is due.
            obtain ⟨factor, hfactor⟩ := exists_factor hpiece hcontent
            obtain ⟨derivation, hderivation⟩ := hbehind lead factor outer
              (fun next hnext => (hseparate next hnext).opens_eq_false rfl) hdepth
              (by simp only [Instruction.gain] at hsurplus; omega)
            exact ⟨derivation, by simp [hderivation, hfactor]⟩
          · exact absurd (hhead _ rfl) (by simp [Lexeme.opens])
      | symbol content =>
          rcases content with operator | _ | _
          · rw [Token.surplus_cons_some rfl]
            simp only [Instruction.gain]
            -- Where a factor is due, no operator can be made up for by what follows.
            refine ⟨fun _ _ _ hsurplus => by omega, ?_⟩
            intro lead factor outer _ hdepth hsurplus
            obtain ⟨derivation, hderivation⟩ :=
              hdue (lead.extend factor operator) outer hdepth (by omega)
            exact ⟨derivation, by simp [hderivation, Lead.pieces_extend]⟩
          · rw [Token.surplus_cons_none rfl]
            refine ⟨fun lead outer hdepth hsurplus => ?_, fun _ _ _ hhead => ?_⟩
            · obtain ⟨derivation, hderivation⟩ :=
                hdue ⟨none, none⟩ (lead :: outer) hdepth hsurplus
              exact ⟨derivation, by simp [hderivation, Lead.spine, Lead.pieces]⟩
            · exact absurd (hhead _ rfl) (by simp [Lexeme.opens])
          · rw [Token.surplus_cons_none rfl]
            have hfirst : ∀ next ∈ pieces.head?, next.opens = false := fun next hnext =>
              (hseparate next hnext).opens_eq_false rfl
            have hle := hzero hfirst
            refine ⟨fun _ _ _ hsurplus => by omega, ?_⟩
            intro lead factor outer _ hdepth hsurplus
            cases outer with
            | nil => cases hdepth
            | cons around outer =>
                -- All since the opening parenthesis is a group, and that is the factor now.
                obtain ⟨derivation, hderivation⟩ :=
                  hbehind around (.group (lead.finish factor)) outer hfirst hdepth hsurplus
                refine ⟨derivation, ?_⟩
                simp [hderivation, Lead.spine, Derivation.pieces, Lead.pieces_finish]

end Derivation

/-! ## Groups that meet -/

/-- In a text that has tokens, operands and groups meet without an operator only where a closing
parenthesis stands right before an opening one. -/
theorem isChain_separate_iff {text : String} {tokens : List Token}
    (htokens : Token.tokenize text = .ok tokens) :
    (Lexeme.split text.toList).IsChain Lexeme.Separate ↔ ¬ [')', '('] <:+: text.toList := by
  obtain ⟨_, hcompatible⟩ := Token.tokenize_eq_ok_iff.mp htokens
  constructor
  · intro hchain hmeet
    obtain ⟨before, after, htext⟩ := hmeet
    have hsplit : Lexeme.split text.toList = Lexeme.split before ++
        .symbol (.parenthesis .closing) :: .symbol (.parenthesis .opening) ::
          Lexeme.split after := by
      rw [← htext, List.append_assoc, List.cons_append, List.cons_append, List.nil_append]
      exact (Lexeme.split_append_symbol (.parenthesis .closing) before _).trans
        (congrArg _ (congrArg _ (Lexeme.split_symbol_cons (.parenthesis .opening) after)))
    rw [hsplit] at hchain
    exact (List.isChain_append_cons_cons.mp hchain).2.1 ⟨rfl, rfl⟩
  · intro hgroups
    rw [List.isChain_iff_forall_rel_of_append_cons_cons] at hcompatible ⊢
    rintro left right before after hsplit ⟨hcloses, hopens⟩
    -- Neither of the two is a run, so that they are the parentheses of two groups.
    obtain ⟨hleft, hright⟩ := hcompatible hsplit hcloses hopens
    cases left with
    | run characters => cases hleft
    | stray c => cases hcloses
    | symbol content =>
        cases right with
        | run characters => cases hright
        | stray c => cases hopens
        | symbol content' =>
            simp only [Lexeme.closes, Lexeme.opens, decide_eq_true_eq] at hcloses hopens
            subst hcloses hopens
            exact hgroups (Lexeme.infix_of_split hsplit)

theorem exists_tokens_of_ofText {text : String} {program : Program}
    (hprogram : Program.ofText text = .ok program) :
    ∃ tokens, Token.tokenize text = .ok tokens ∧ Program.ofTokens tokens = .ok program := by
  rw [Program.ofText_eq] at hprogram
  exact Except.bind_eq_ok_iff.mp hprogram

/-- Operators keep groups apart in every text that derives from the grammar. -/
theorem Derivable.not_groups_meet {text : String} (hderivable : Derivable text) :
    ¬ [')', '('] <:+: text.toList := by
  obtain ⟨derivation, rfl⟩ := hderivable
  rw [← isChain_separate_iff derivation.tokenize_text, Derivation.text, String.toList_ofList,
    derivation.split_characters]
  exact derivation.isChain_pieces

/-- A text derives from the grammar if its program has one operand more than operators and no
closing parenthesis stands right before an opening one. -/
theorem derivable_of_surplus {text : String} {program : Program}
    (hprogram : Program.ofText text = .ok program)
    (hsurplus : Instruction.surplus program.instructions = 1)
    (hgroups : ¬ [')', '('] <:+: text.toList) : Derivable text := by
  obtain ⟨tokens, htokens, hconverted⟩ := exists_tokens_of_ofText hprogram
  have hchain := (isChain_separate_iff htokens).mpr hgroups
  have hone : Token.surplus tokens = 1 := (Token.surplus_of_ofTokens hconverted).trans hsurplus
  obtain ⟨hreads, _⟩ := Token.tokenize_eq_ok_iff.mp htokens
  obtain ⟨derivation, hpieces⟩ := (Derivation.exists_completion hreads
    Lexeme.wellFormed_of_mem_split hchain).1 ⟨none, none⟩ []
    (Program.depth_of_ofTokens hconverted) hone
  refine ⟨derivation, ?_⟩
  rw [Derivation.text, ← String.toList_inj, String.toList_ofList, ← derivation.spell_pieces,
    hpieces]
  exact Lexeme.spell_split text.toList

/-- Of the texts that a new engine gives a number, those derive from the grammar, after the braces
around them have been taken off, in which no closing parenthesis stands right before an opening
one. -/
theorem derivable_iff_of_evaluate (engine : Engine) (text : String) (bindings : Bindings)
    {number : Float}
    (hnumber : (engine.evaluate {} text bindings).1.outcome = .ok (.number number)) :
    Derivable (engine.source text) ↔ ¬ [')', '('] <:+: (engine.source text).toList := by
  obtain ⟨program, hprogram, hrun⟩ := engine.exists_program_of_evaluate hnumber
  exact ⟨Derivable.not_groups_meet, derivable_of_surplus hprogram (Program.surplus_of_run hrun)⟩

theorem derivable_iff_of_evaluate_braced :
    (Engine.evaluate {} {} (braced "2*(x-3)") fun _ => some 5).1.outcome = .ok (.number 4) ∧
      (Derivable "2*(x-3)" ↔ ¬ [')', '('] <:+: "2*(x-3)".toList) := by
  refine ⟨by decide +kernel, ?_⟩
  have hnumber : (Engine.evaluate {} {} (braced "2*(x-3)") fun _ => some 5).1.outcome =
      .ok (.number 4) := by decide +kernel
  exact (unwrapBraces_braced "2*(x-3)") ▸ derivable_iff_of_evaluate {} _ _ hnumber

/-- An operator behind two groups that meet is given both as its operands. -/
theorem evaluate_groups_not_derivable :
    (Engine.evaluate {} {} "(2)(3)+" Bindings.empty).1.outcome = .ok (.number 5) ∧
      ¬ Derivable "(2)(3)+" := by
  refine ⟨by decide +kernel, ?_⟩
  intro hderivable
  exact hderivable.not_groups_meet ⟨['(', '2'], ['3', ')', '+'], rfl⟩

end Formula
