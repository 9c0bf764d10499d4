import Formula.Proofs.Conversion
import Formula.Proofs.Engine
import Formula.Proofs.Grammar
import Formula.Proofs.Machine
import Mathlib.Logic.Function.Basic

/-!
# Texts in the place of names

A name that stands for a number may give way to a text that has this number as its value, put in
parentheses. The pieces of the new text are those of the old one with the pieces of the group in the
place of the name, the conversion turns the group into one block of steps wherever it stands, and
that block acts on any stack as one push. None of this asks the text around the name, or the one
that takes its place, to be a formula.
-/

namespace Formula

/-! ## Rows with a block in the place of an element -/

/-- A row in which each element that is the wanted one has given way to a block. -/
def expand {α : Type} [DecidableEq α] (wanted : α) (block row : List α) : List α :=
  row.flatMap fun element => if element = wanted then block else [element]

section Expand

variable {α : Type} [DecidableEq α] {wanted : α} {block row : List α}

theorem expand_cons_self (wanted : α) (block row : List α) :
    expand wanted block (wanted :: row) = block ++ expand wanted block row := by
  simp [expand]

theorem expand_cons_of_ne {element : α} (hne : element ≠ wanted) (block row : List α) :
    expand wanted block (element :: row) = element :: expand wanted block row := by
  simp [expand, hne]

theorem expand_append (first second : List α) :
    expand wanted block (first ++ second) =
      expand wanted block first ++ expand wanted block second := List.flatMap_append

theorem expand_of_not_mem (hrow : wanted ∉ row) : expand wanted block row = row := by
  induction row with
  | nil => rfl
  | cons element rest ih =>
      obtain ⟨hne, hrest⟩ := not_or.mp (List.mem_cons.not.mp hrow)
      rw [expand_cons_of_ne (Ne.symm hne), ih hrest]

theorem expand_reverse (wanted : α) (block row : List α) :
    expand wanted block.reverse row.reverse = (expand wanted block row).reverse := by
  rw [expand, expand, List.flatMap_reverse]
  congr 2
  funext element
  by_cases heq : element = wanted <;> simp [heq]

theorem expand_eq_nil_iff (hblock : block ≠ []) : expand wanted block row = [] ↔ row = [] := by
  cases row with
  | nil => simp [expand]
  | cons element rest =>
      by_cases heq : element = wanted
      · rw [heq, expand_cons_self]
        simp [hblock]
      · rw [expand_cons_of_ne heq]
        simp

theorem forall_mem_expand {holds : α → Prop} (hblock : ∀ element ∈ block, holds element)
    (hrow : ∀ element ∈ row, holds element) : ∀ element ∈ expand wanted block row, holds element := by
  intro element helement
  obtain ⟨origin, horigin, hmem⟩ := List.mem_flatMap.mp helement
  by_cases heq : origin = wanted
  · rw [if_pos heq] at hmem
    exact hblock element hmem
  · rw [if_neg heq, List.mem_singleton] at hmem
    exact hmem ▸ hrow origin horigin

/-- Neighbours stay related if the ends of the block may stand where the element has stood. -/
theorem isChain_expand {related : α → α → Prop} (hne : block ≠ []) (hblock : block.IsChain related)
    (hbefore : ∀ left, related left wanted → ∀ first ∈ block.head?, related left first)
    (hafter : ∀ right, related wanted right → ∀ last ∈ block.getLast?, related last right)
    (hrow : row.IsChain related) : (expand wanted block row).IsChain related := by
  -- What an element may stand before in the old row, it may stand before in the new one.
  have hhead (left : α) {rest : List α} (hrest : ∀ next ∈ rest.head?, related left next) :
      ∀ first ∈ (expand wanted block rest).head?, related left first := by
    intro first hfirst
    cases rest with
    | nil => cases hfirst
    | cons next rest =>
        have hnext := hrest next rfl
        by_cases heq : next = wanted
        · subst heq
          rw [expand_cons_self, List.head?_append_of_ne_nil _ hne] at hfirst
          exact hbefore left hnext first hfirst
        · rw [expand_cons_of_ne heq] at hfirst
          obtain rfl := Option.some.inj hfirst
          exact hnext
  induction row with
  | nil => exact List.isChain_nil
  | cons element rest ih =>
      obtain ⟨hnext, hrest⟩ := List.isChain_cons.mp hrow
      by_cases heq : element = wanted
      · subst heq
        rw [expand_cons_self]
        refine List.isChain_append.mpr ⟨hblock, ih hrest, fun last hlast => hhead last ?_⟩
        intro next hmem
        exact hafter next (hnext next hmem) last hlast
      · rw [expand_cons_of_ne heq]
        exact List.isChain_cons.mpr ⟨hhead element hnext, ih hrest⟩

theorem forall₂_expand {β : Type} [DecidableEq β] {partner : α → β → Prop} {wanted' : β}
    {block' row' : List β} (hsame : ∀ x y, partner x y → (x = wanted ↔ y = wanted'))
    (hblock : List.Forall₂ partner block block') (hrow : List.Forall₂ partner row row') :
    List.Forall₂ partner (expand wanted block row) (expand wanted' block' row') := by
  induction hrow with
  | nil => exact .nil
  | @cons x y row row' hfirst hrest ih =>
      by_cases heq : x = wanted
      · obtain rfl := heq
        obtain rfl := (hsame x y hfirst).mp rfl
        rw [expand_cons_self, expand_cons_self]
        exact List.rel_append hblock ih
      · have hne : y ≠ wanted' := fun heq' => heq ((hsame x y hfirst).mpr heq')
        rw [expand_cons_of_ne heq, expand_cons_of_ne hne]
        exact .cons hfirst ih

end Expand

/-! ## Texts and tokens -/

def Name.word (name : Name) : String := .ofList name.characters

/-- A text in which each operand that is a certain name has given way to another text, in
parentheses. -/
def substitute (name : Name) (inner text : String) : String :=
  .ofList ((Lexeme.split text.toList).flatMap fun piece =>
    if piece = .run name.characters then '(' :: (inner.toList ++ [')']) else piece.spelling)

/-- Pieces in parentheses. -/
def Lexeme.group (pieces : List Lexeme) : List Lexeme :=
  .symbol (.parenthesis .opening) :: (pieces ++ [.symbol (.parenthesis .closing)])

/-- Tokens in parentheses. -/
def Token.group (tokens : List Token) : List Token :=
  .symbol (.parenthesis .opening) :: (tokens ++ [.symbol (.parenthesis .closing)])

namespace Lexeme

theorem isChain_group {pieces : List Lexeme} (hpieces : pieces.IsChain Compatible) :
    (group pieces).IsChain Compatible := by
  refine List.isChain_cons.mpr ⟨fun piece _ hcloses => ?_, ?_⟩
  · cases hcloses
  · refine List.isChain_append.mpr ⟨hpieces, List.isChain_singleton _, ?_⟩
    intro last _ first hfirst _ hopens
    obtain rfl := Option.some.inj hfirst
    cases hopens

/-- The text with the group in the place of the name has the pieces with the pieces of the group in
the place of the name. -/
theorem split_substitute {inner text : String} (name : Name)
    (hinner : (split inner.toList).IsChain Compatible)
    (htext : (split text.toList).IsChain Compatible) :
    split (substitute name inner text).toList =
        expand (.run name.characters) (group (split inner.toList)) (split text.toList) ∧
      (expand (.run name.characters) (group (split inner.toList)) (split text.toList)).IsChain
        Compatible := by
  have hchain : (expand (.run name.characters) (group (split inner.toList))
      (split text.toList)).IsChain Compatible := by
    apply isChain_expand (List.cons_ne_nil _ _) (isChain_group hinner)
    · intro left hleft first hfirst hcloses _
      -- A piece before the name closes nothing.
      cases (hleft hcloses rfl).2
    · intro right hright last hlast _ hopens
      cases (hright rfl hopens).1
    · exact htext
  refine ⟨?_, hchain⟩
  have hspelling : (expand (.run name.characters) (group (split inner.toList))
      (split text.toList)).flatMap spelling = (substitute name inner text).toList := by
    rw [substitute, String.toList_ofList, expand, List.flatMap_assoc]
    congr 1
    funext piece
    by_cases heq : piece = .run name.characters
    · rw [if_pos heq, if_pos heq, group]
      simp [spelling, spell_split, Symbol.character, Side.character]
    · rw [if_neg heq, if_neg heq]
      simp
  rw [← hspelling]
  refine split_spelling ?_ (hchain.imp fun _ _ hcompatible => hcompatible.apart)
  apply forall_mem_expand
  · exact List.forall_mem_cons.mpr ⟨trivial, List.forall_mem_append.mpr
      ⟨wellFormed_of_mem_split, List.forall_mem_singleton.mpr trivial⟩⟩
  · exact wellFormed_of_mem_split

/-- The run of a name is read as the name, and no other piece is. -/
theorem Reads.eq_run_iff {piece : Lexeme} {token : Token} (hread : Reads piece token)
    (name : Name) : piece = .run name.characters ↔ token = .operand (.name name.word) := by
  constructor
  · rintro rfl
    cases hread with
    | run hcontent =>
        exact congrArg Token.operand
          (Except.ok.inj (hcontent.symm.trans (Derivation.read_name name)))
  · rintro rfl
    cases hread with
    | @run characters content hcontent =>
        obtain ⟨rfl, -⟩ := Operand.read_eq_name_iff.mp hcontent
        rw [Name.word, String.toList_ofList]

end Lexeme

/-- A text that has tokens still has them with the group in the place of the name. -/
theorem Token.tokenize_substitute {inner text : String} {inside tokens : List Token} (name : Name)
    (hinner : tokenize inner = .ok inside) (htext : tokenize text = .ok tokens) :
    tokenize (substitute name inner text) =
      .ok (expand (.operand (.name name.word)) (group inside) tokens) := by
  obtain ⟨hreads, hchain⟩ := tokenize_eq_ok_iff.mp hinner
  obtain ⟨hreads', hchain'⟩ := tokenize_eq_ok_iff.mp htext
  obtain ⟨hsplit, hcompatible⟩ := Lexeme.split_substitute name hchain hchain'
  rw [tokenize_eq_ok_iff, hsplit]
  refine ⟨forall₂_expand (fun _ _ hread => hread.eq_run_iff name) ?_ hreads', hcompatible⟩
  exact .cons (.symbol _) (List.rel_append hreads (.cons (.symbol _) .nil))

/-! ## Programs -/

namespace Yard

variable {inside : List Token} {block : Program}

/-- A state with the steps of a block in the place of an operand. -/
def expanded (wanted : Operand) (block : Program) (yard : Yard) : Yard :=
  { yard with emitted := expand (.push wanted) block.instructions.reverse yard.emitted }

theorem expand_release (wanted : Operand) (block : List Instruction) (due : List Operator)
    (emitted : List Instruction) :
    expand (.push wanted) block (release due emitted) =
      release due (expand (.push wanted) block emitted) := by
  rw [release, expand_append, expand_of_not_mem (by simp)]
  rfl

theorem await_expanded (wanted : Operand) (block : Program) (yard : Yard) (operator : Operator) :
    (yard.expanded wanted block).await operator = (yard.await operator).expanded wanted block := by
  have hwaiting : (yard.expanded wanted block).waiting = yard.waiting := rfl
  unfold await
  rw [hwaiting]
  by_cases hloose : topPrecedence yard.waiting < operator.precedence
  · rw [if_pos hloose, if_pos hloose]
    rfl
  · rw [if_neg hloose, if_neg hloose]
    simp only [expanded, expand_release]

theorem step_expanded {wanted : Operand} {token : Token} (hne : token ≠ .operand wanted)
    (block : Program) (yard : Yard) :
    (yard.expanded wanted block).step token =
      (yard.step token).map (Yard.expanded wanted block) := by
  rcases token with operand | operator | side
  · have hpush : Instruction.push operand ≠ .push wanted := by simpa using hne
    simp only [step, expanded, Except.map, expand_cons_of_ne hpush]
  · exact congrArg Except.ok (await_expanded wanted block yard operator)
  · cases side with
    | opening => rfl
    | closing =>
        obtain ⟨emitted, waiting, outer⟩ := yard
        cases outer with
        | nil => rfl
        | cons around outer => simp only [step, expanded, Except.map, expand_release]

/-- A conversion meets the tokens of a group where the operand has been, and holds its block where
it has held the operand. -/
theorem run_expanded (wanted : Operand) (hblock : Program.ofTokens inside = .ok block)
    (yard : Yard) (tokens : List Token) :
    (yard.expanded wanted block).run (expand (.operand wanted) (Token.group inside) tokens) =
      (yard.run tokens).map (Yard.expanded wanted block) := by
  induction tokens generalizing yard with
  | nil => rfl
  | cons token rest ih =>
      by_cases heq : token = .operand wanted
      · subst heq
        rw [expand_cons_self, run_append, Token.group, run_group hblock]
        have hnext := ih { yard with emitted := .push wanted :: yard.emitted }
        rw [expanded, expand_cons_self] at hnext
        exact hnext
      · rw [expand_cons_of_ne heq, run_cons, run_cons, step_expanded heq]
        cases yard.step token with
        | error error => rfl
        | ok next => exact ih next

end Yard

/-- Tokens that make a program still make one with a group in the place of an operand, and the steps
of the group are in the place of the operand then. -/
theorem Program.ofTokens_expand {inside tokens : List Token} {block program : Program}
    (wanted : Operand) (hblock : ofTokens inside = .ok block)
    (hprogram : ofTokens tokens = .ok program) :
    ofTokens (expand (.operand wanted) (Token.group inside) tokens) =
      .ok ⟨expand (.push wanted) block.instructions program.instructions⟩ := by
  obtain ⟨⟨emitted, waiting, outer⟩, hrun, houter, rfl⟩ := exists_of_ofTokens hprogram
  dsimp only at houter
  subst houter
  have hexpanded := Yard.run_expanded wanted hblock {} tokens
  rw [hrun] at hexpanded
  have hlast : Yard.run {} (expand (.operand wanted) (Token.group inside) tokens) =
      .ok (Yard.expanded wanted block ⟨emitted, waiting, []⟩) := hexpanded
  rw [ofTokens, hlast]
  show Except.ok (Program.mk (Yard.release waiting
    (expand (.push wanted) block.instructions.reverse emitted)).reverse) = _
  rw [← Yard.expand_release, ← expand_reverse, List.reverse_reverse]

/-- A text that compiles still compiles with a text in the place of a name. -/
theorem Program.ofText_substitute {inner text : String} {block program : Program} (name : Name)
    (hinner : ofText inner = .ok block) (htext : ofText text = .ok program) :
    ofText (substitute name inner text) =
      .ok ⟨expand (.push (.name name.word)) block.instructions program.instructions⟩ := by
  rw [ofText_eq] at hinner htext ⊢
  obtain ⟨inside, hinside, hblock⟩ := Except.bind_eq_ok_iff.mp hinner
  obtain ⟨tokens, htokens, hprogram⟩ := Except.bind_eq_ok_iff.mp htext
  rw [Token.tokenize_substitute name hinside htokens]
  exact ofTokens_expand (.name name.word) hblock hprogram

/-! ## Runs -/

/-- Two outcomes that are the same, but for what the report of a run that has not come down to a
single value says about its program. -/
inductive Alike {α : Type} : Except Error α → Except Error α → Prop where
  | ok (value : α) : Alike (.ok value) (.ok value)
  | undefinedVariable (name : String) :
      Alike (.error (.undefinedVariable name)) (.error (.undefinedVariable name))
  | internal (detail detail' : String) :
      Alike (.error (.internal detail)) (.error (.internal detail'))

theorem Alike.bind {α β : Type} {first first' : Except Error α} {next next' : α → Except Error β}
    (hfirst : Alike first first') (hnext : ∀ value, Alike (next value) (next' value)) :
    Alike (first.bind next) (first'.bind next') := by
  cases hfirst with
  | ok value => exact hnext value
  | undefinedVariable name => exact .undefinedVariable name
  | internal detail detail' => exact .internal detail detail'

namespace Program

variable {bindings : Bindings} {name : String} {number : Float} {block : Program}

/-- A step that does not look for a name is the same whatever the name is bound to. -/
theorem step_alike (program other : Program) {instruction : Instruction}
    (hne : instruction ≠ .push (.name name)) (stack : List Float) :
    Alike (other.step bindings stack instruction)
      (program.step (Function.update bindings name (some number)) stack instruction) := by
  rcases instruction with (value | word) | operator
  · exact .ok _
  · have hword : word ≠ name := by simpa using hne
    simp only [step, Function.update_of_ne hword]
    cases bindings word with
    | none => exact .undefinedVariable word
    | some value => exact .ok _
  · rcases stack with _ | ⟨right, _ | ⟨left, rest⟩⟩
    · exact .internal _ _
    · exact .internal _ _
    · exact .ok _

/-- Steps that leave a number on an empty stack act on any stack like a push of a name that is bound
to the number. -/
theorem foldlM_expand_alike (hblock : block.run bindings = .ok (.number number))
    (program other : Program) (instructions : List Instruction) (stack : List Float) :
    Alike
      ((expand (.push (.name name)) block.instructions instructions).foldlM (other.step bindings)
        stack)
      (instructions.foldlM (program.step (Function.update bindings name (some number))) stack) := by
  induction instructions generalizing stack with
  | nil => exact .ok stack
  | cons instruction rest ih =>
      by_cases heq : instruction = .push (.name name)
      · subst heq
        have hpush : program.step (Function.update bindings name (some number)) stack
            (.push (.name name)) = .ok (number :: stack) := by
          simp [step]
        rw [expand_cons_self, List.foldlM_append, List.foldlM_cons, hpush,
          show block.instructions.foldlM (other.step bindings) stack = .ok (number :: stack) from
            foldlM_step_append (foldlM_of_run hblock).2 other stack]
        exact ih (number :: stack)
      · rw [expand_cons_of_ne heq, List.foldlM_cons, List.foldlM_cons]
        exact (step_alike program other heq stack).bind ih

theorem run_expand_alike (hblock : block.run bindings = .ok (.number number)) (program : Program) :
    Alike
      ((Program.mk (expand (.push (.name name)) block.instructions program.instructions)).run
        bindings)
      (program.run (Function.update bindings name (some number))) := by
  have hnil : expand (.push (.name name)) block.instructions program.instructions = [] ↔
      program.instructions = [] := expand_eq_nil_iff (foldlM_of_run hblock).1
  unfold run
  by_cases hsteps : program.instructions = []
  · have hexpanded := hnil.mpr hsteps
    rw [if_pos (by simpa [isEmpty] using hexpanded), if_pos (by simpa [isEmpty] using hsteps)]
    exact Alike.ok Value.empty
  · have hexpanded := mt hnil.mp hsteps
    rw [if_neg (by simpa [isEmpty] using hexpanded), if_neg (by simpa [isEmpty] using hsteps)]
    apply (foldlM_expand_alike hblock program _ program.instructions []).bind
    intro stack
    rcases stack with _ | ⟨result, _ | ⟨second, rest⟩⟩
    · exact .internal _ _
    · exact .ok _
    · exact .internal _ _

end Program

/-- A text in which the operands that are a name give way to another text compiles if both texts
do, and it evaluates like the text with the name bound to the number that the other text evaluates
to. -/
theorem evaluate_substitute (engine : Engine) (name : Name) {inner text : String}
    {program : Program} (bindings : Bindings) {number : Float}
    (hinner : '\x7b' ∉ inner.toList) (htext : '\x7b' ∉ text.toList)
    (hcompile : (engine.compile {} text).1.outcome = .ok program)
    (hnumber : (engine.evaluate {} inner bindings).1.outcome = .ok (.number number)) :
    (∃ substituted, (engine.compile {} (substitute name inner text)).1.outcome =
        .ok substituted) ∧
      Alike (engine.evaluate {} (substitute name inner text) bindings).1.outcome
        (engine.evaluate {} text
          (Function.update bindings name.word (some number))).1.outcome := by
  have hsource {text : String} (hbrace : '\x7b' ∉ text.toList) : engine.source text = text :=
    engine.source_eq_self fun hhead => hbrace (List.mem_of_mem_head? hhead)
  rw [engine.outcome_compile_empty, hsource htext] at hcompile
  obtain ⟨block, hblock, hrun⟩ := engine.exists_program_of_evaluate hnumber
  rw [hsource hinner] at hblock
  have hprogram := Program.ofText_substitute name hblock hcompile
  constructor
  · have hcompiled := engine.outcome_compile_empty (substitute name inner text)
    rw [engine.source_of_ofText hprogram] at hcompiled
    exact ⟨_, hcompiled.trans hprogram⟩
  · rw [engine.outcome_evaluate_of_ofText hprogram, engine.outcome_evaluate_of_ofText hcompile]
    exact Program.run_expand_alike hrun program

/-- The text that takes the place of the name may use the name itself, and the text around it need
not be a formula. -/
theorem evaluate_substitute_own_name :
    substitute ⟨['x'], by decide, List.forall_mem_singleton.mpr rfl, rfl⟩ "x+1" "(x)(2)-" =
        "((x+1))(2)-" ∧
      (Engine.evaluate {} {} "((x+1))(2)-" fun _ => some 2).1.outcome = .ok (.number 1) := by
  let name : Name := ⟨['x'], by decide, List.forall_mem_singleton.mpr rfl, rfl⟩
  have hsubstitute : substitute name "x+1" "(x)(2)-" = "((x+1))(2)-" := by decide +kernel
  have hcompile : (Engine.compile {} {} "(x)(2)-").1.outcome =
      .ok ⟨[.push (.name "x"), .push (.number 2), .apply .subtract]⟩ := by decide +kernel
  have hnumber : (Engine.evaluate {} {} "x+1" fun _ => some 2).1.outcome = .ok (.number 3) := by
    decide +kernel
  have houter : (Engine.evaluate {} {} "(x)(2)-"
      (Function.update (fun _ => some 2) name.word (some 3))).1.outcome = .ok (.number 1) := by
    decide +kernel
  obtain ⟨_, halike⟩ := evaluate_substitute {} name (fun _ => some 2) (by decide +kernel)
    (by decide +kernel) hcompile hnumber
  rw [hsubstitute, houter] at halike
  refine ⟨hsubstitute, ?_⟩
  generalize (Engine.evaluate {} {} "((x+1))(2)-" fun _ => some 2).1.outcome = outcome at halike ⊢
  cases halike
  rfl

end Formula
