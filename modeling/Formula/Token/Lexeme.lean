import Formula.Alphabet
import Formula.Symbol

/-!
# Lexemes

Before anything is read, a text falls into pieces: runs of operand characters that are as long as
possible, single symbols, and single characters that belong to neither kind. Nothing is skipped:
the pieces put together are the text again, which is the content of `spell_split`.
-/

namespace Formula

inductive Lexeme where
  /-- A longest run of operand characters. -/
  | run (characters : List Char)
  | symbol (content : Symbol)
  /-- A character that no formula holds. -/
  | stray (character : Char)
deriving DecidableEq, Repr

namespace Lexeme

/-- Put an operand character in front of pieces, as part of the run that they begin with or as a
run of its own. -/
def extend (c : Char) : List Lexeme → List Lexeme
  | run characters :: rest => run (c :: characters) :: rest
  | pieces => run [c] :: pieces

/-- The piece that a character makes which is no operand character. -/
def single (c : Char) : Lexeme :=
  match Symbol.ofChar? c with
  | some content => symbol content
  | none => stray c

def split : List Char → List Lexeme
  | [] => []
  | c :: rest => if Alphabet.isOperand c then extend c (split rest) else single c :: split rest

def spelling : Lexeme → List Char
  | run characters => characters
  | symbol content => [content.character]
  | stray c => [c]

theorem spelling_single (c : Char) : (single c).spelling = [c] := by
  unfold single
  cases found : Symbol.ofChar? c with
  | none => rfl
  | some content => simp [spelling, Symbol.character_of_ofChar? found]

theorem spelling_extend (c : Char) (pieces : List Lexeme) :
    (extend c pieces).flatMap spelling = c :: pieces.flatMap spelling := by
  fun_cases extend c pieces <;> rfl

/-- The pieces of a text spell the text. -/
theorem spell_split (text : List Char) : (split text).flatMap spelling = text := by
  induction text with
  | nil => rfl
  | cons c rest ih =>
      unfold split
      split
      · rw [spelling_extend, ih]
      · rw [List.flatMap_cons, spelling_single, ih, List.singleton_append]

end Lexeme

end Formula
