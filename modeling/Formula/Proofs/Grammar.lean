import Formula.Proofs.Token
import Formula.Proofs.Tree

/-!
# The grammar of formulas

A formula is a sum of terms, a term is a product of factors, and a factor is a numeral, a name or a
formula in parentheses; powers count as products. Sums and products group to the left. A derivation
records how a text arises from these rules. It fixes the text, and also the tree that the text
stands for, which has neither parentheses nor levels.
-/

namespace Formula

/-- A name as it may stand in a formula. -/
structure Name where
  characters : List Char
  characters_ne_nil : characters ≠ []
  isOperand : ∀ c ∈ characters, Alphabet.isOperand c = true
  not_startsNumber : characters.head?.any Alphabet.startsNumber = false

/-- What the grammar has rules for. -/
inductive Phrase where
  | expression
  | term
  | factor

/-- The derivations of the grammar. -/
inductive Derivation : Phrase → Type where
  | additive (left : Derivation .expression) (operator : Operator)
      (isAdditive : operator ∈ [Operator.add, .subtract]) (right : Derivation .term) :
      Derivation .expression
  | ofTerm (term : Derivation .term) : Derivation .expression
  | multiplicative (left : Derivation .term) (operator : Operator)
      (isMultiplicative : operator ∈ [Operator.multiply, .divide, .power])
      (right : Derivation .factor) : Derivation .term
  | ofFactor (factor : Derivation .factor) : Derivation .term
  | numeral (numeral : Numeral) : Derivation .factor
  | name (name : Name) : Derivation .factor
  | group (inner : Derivation .expression) : Derivation .factor

namespace Derivation

variable {phrase : Phrase}

def characters {phrase : Phrase} : Derivation phrase → List Char
  | additive left operator _ right => left.characters ++ operator.character :: right.characters
  | ofTerm term => term.characters
  | multiplicative left operator _ right =>
      left.characters ++ operator.character :: right.characters
  | ofFactor factor => factor.characters
  | numeral content => content.characters
  | name content => content.characters
  | group inner => '(' :: (inner.characters ++ [')'])

def text (derivation : Derivation phrase) : String := .ofList derivation.characters

/-- What a derivation stands for. -/
def tree {phrase : Phrase} : Derivation phrase → Tree
  | additive left operator _ right => .node operator left.tree right.tree
  | ofTerm term => term.tree
  | multiplicative left operator _ right => .node operator left.tree right.tree
  | ofFactor factor => factor.tree
  | numeral content => .leaf (.number content.value)
  | name content => .leaf (.name (.ofList content.characters))
  | group inner => inner.tree

def pieces {phrase : Phrase} : Derivation phrase → List Lexeme
  | additive left operator _ right =>
      left.pieces ++ .symbol (.operator operator) :: right.pieces
  | ofTerm term => term.pieces
  | multiplicative left operator _ right =>
      left.pieces ++ .symbol (.operator operator) :: right.pieces
  | ofFactor factor => factor.pieces
  | numeral content => [.run content.characters]
  | name content => [.run content.characters]
  | group inner =>
      .symbol (.parenthesis .opening) :: (inner.pieces ++ [.symbol (.parenthesis .closing)])

def tokens {phrase : Phrase} : Derivation phrase → List Token
  | additive left operator _ right =>
      left.tokens ++ .symbol (.operator operator) :: right.tokens
  | ofTerm term => term.tokens
  | multiplicative left operator _ right =>
      left.tokens ++ .symbol (.operator operator) :: right.tokens
  | ofFactor factor => factor.tokens
  | numeral content => [.operand (.number content.value)]
  | name content => [.operand (.name (.ofList content.characters))]
  | group inner =>
      .symbol (.parenthesis .opening) :: (inner.tokens ++ [.symbol (.parenthesis .closing)])

/-! ## The tokens of the text -/

theorem spell_pieces (derivation : Derivation phrase) :
    derivation.pieces.flatMap Lexeme.spelling = derivation.characters := by
  induction derivation with
  | additive left operator _ right ihleft ihright =>
      simp [pieces, characters, Lexeme.spelling, Symbol.character, ihleft, ihright]
  | ofTerm term ih => exact ih
  | multiplicative left operator _ right ihleft ihright =>
      simp [pieces, characters, Lexeme.spelling, Symbol.character, ihleft, ihright]
  | ofFactor factor ih => exact ih
  | numeral content => simp [pieces, characters, Lexeme.spelling]
  | name content => simp [pieces, characters, Lexeme.spelling]
  | group inner ih =>
      simp [pieces, characters, Lexeme.spelling, Symbol.character, Side.character, ih]

theorem wellFormed_of_mem_pieces (derivation : Derivation phrase) :
    ∀ piece ∈ derivation.pieces, piece.WellFormed := by
  induction derivation with
  | additive left operator _ right ihleft ihright =>
      exact List.forall_mem_append.mpr ⟨ihleft, List.forall_mem_cons.mpr ⟨trivial, ihright⟩⟩
  | ofTerm term ih => exact ih
  | multiplicative left operator _ right ihleft ihright =>
      exact List.forall_mem_append.mpr ⟨ihleft, List.forall_mem_cons.mpr ⟨trivial, ihright⟩⟩
  | ofFactor factor ih => exact ih
  | numeral content =>
      exact List.forall_mem_singleton.mpr ⟨content.characters_ne_nil, content.isOperand_characters⟩
  | name content =>
      exact List.forall_mem_singleton.mpr ⟨content.characters_ne_nil, content.isOperand⟩
  | group inner ih =>
      exact List.forall_mem_cons.mpr
        ⟨trivial, List.forall_mem_append.mpr ⟨ih, List.forall_mem_singleton.mpr trivial⟩⟩

/-- Operators keep operands and groups apart. -/
theorem isChain_pieces (derivation : Derivation phrase) :
    derivation.pieces.IsChain Lexeme.Separate := by
  have hoperator (operator : Operator) {left right : List Lexeme}
      (hleft : left.IsChain Lexeme.Separate) (hright : right.IsChain Lexeme.Separate) :
      (left ++ .symbol (.operator operator) :: right).IsChain Lexeme.Separate := by
    refine List.isChain_append.mpr ⟨hleft, List.isChain_cons.mpr ⟨?_, hright⟩, ?_⟩
    · intro piece _ hmeet
      simp [Lexeme.closes] at hmeet
    · intro piece _ next hnext hmeet
      obtain rfl := Option.some.inj hnext
      simp [Lexeme.opens] at hmeet
  induction derivation with
  | additive left operator _ right ihleft ihright => exact hoperator operator ihleft ihright
  | ofTerm term ih => exact ih
  | multiplicative left operator _ right ihleft ihright => exact hoperator operator ihleft ihright
  | ofFactor factor ih => exact ih
  | numeral content => exact List.isChain_singleton _
  | name content => exact List.isChain_singleton _
  | group inner ih =>
      refine List.isChain_cons.mpr ⟨?_, List.isChain_append.mpr ⟨ih, List.isChain_singleton _, ?_⟩⟩
      · intro piece _ hmeet
        simp [Lexeme.closes] at hmeet
      · intro piece _ next hnext hmeet
        obtain rfl := Option.some.inj hnext
        simp [Lexeme.opens] at hmeet

theorem split_characters (derivation : Derivation phrase) :
    Lexeme.split derivation.characters = derivation.pieces := by
  rw [← derivation.spell_pieces]
  exact Lexeme.split_spelling derivation.wellFormed_of_mem_pieces
    (derivation.isChain_pieces.imp fun _ _ hseparate => hseparate.compatible.apart)

theorem read_numeral (numeral : Numeral) :
    Operand.read numeral.characters = .ok (.number numeral.value) := by
  have hread := (Numeral.read?_eq_some_iff numeral.isOperand_characters
    numeral.head?_characters).mpr ⟨numeral, rfl, rfl⟩
  unfold Operand.read
  rw [if_pos numeral.head?_characters, hread]

theorem read_name (name : Name) :
    Operand.read name.characters = .ok (.name (.ofList name.characters)) := by
  unfold Operand.read
  rw [if_neg (by simp [name.not_startsNumber])]

theorem reads_pieces (derivation : Derivation phrase) :
    List.Forall₂ Lexeme.Reads derivation.pieces derivation.tokens := by
  induction derivation with
  | additive left operator _ right ihleft ihright =>
      exact List.rel_append ihleft (.cons (.symbol _) ihright)
  | ofTerm term ih => exact ih
  | multiplicative left operator _ right ihleft ihright =>
      exact List.rel_append ihleft (.cons (.symbol _) ihright)
  | ofFactor factor ih => exact ih
  | numeral content => exact .cons (.run (read_numeral content)) .nil
  | name content => exact .cons (.run (read_name content)) .nil
  | group inner ih => exact .cons (.symbol _) (List.rel_append ih (.cons (.symbol _) .nil))

/-- The text of a derivation has the tokens of the derivation. -/
theorem tokenize_text (derivation : Derivation phrase) :
    Token.tokenize derivation.text = .ok derivation.tokens := by
  rw [Token.tokenize_eq_ok_iff, text, String.toList_ofList, split_characters]
  exact ⟨derivation.reads_pieces,
    derivation.isChain_pieces.imp fun _ _ hseparate => hseparate.compatible⟩

end Derivation

end Formula
