import Formula.Number.Numeral
import Formula.Token
import Formula.Token.Lexeme
import Formula.Traced

/-!
# From text to tokens

The pieces of a text are read from left to right. A run of operand characters is reported and read
when the symbol or the end that closes it is reached, so that a run which touches a stray character
is not read at all: the stray character is the fault. A text without such faults may still place an
operand next to a parenthesis, outside of it; the leftmost such place is the fault then.
-/

namespace Formula

/-- The operand that a text stands for: a number if it begins like one, and a name otherwise. -/
def Operand.read (text : List Char) : Except Error Operand :=
  if text.head?.any Alphabet.startsNumber then
    match Numeral.read? text with
    | some value => .ok (.number value)
    | none => .error (.malformedNumber (.ofList text))
  else .ok (.name (.ofList text))

namespace Token

/-- The tokens that the pieces of a text stand for. -/
def ofLexemes : List Lexeme → Traced (List Token)
  | [] => pure []
  | .run _ :: .stray c :: _ => .fail (.invalidCharacter (Alphabet.describe c))
  | .stray c :: _ => .fail (.invalidCharacter (Alphabet.describe c))
  | .run characters :: rest => do
      .report (.operand (.ofList characters))
      let content ← Traced.silent (Operand.read characters)
      (.operand content :: ·) <$> ofLexemes rest
  | .symbol content :: rest => (.symbol content :: ·) <$> ofLexemes rest

/-- The leftmost place where an operand meets the outside of a parenthesis, as text. -/
def touching? : List Token → Option String
  | .operand content :: .symbol (.parenthesis .opening) :: _ => some (content.text ++ "(")
  | .symbol (.parenthesis .closing) :: .operand content :: _ => some (")" ++ content.text)
  | _ :: rest => touching? rest
  | [] => none

/-- The tokens of a text, with the operands that were read on the way. -/
def scan (text : String) : Traced (List Token) := do
  let tokens ← ofLexemes (Lexeme.split text.toList)
  match touching? tokens with
  | some near => .fail (.missingOperator near)
  | none => return tokens

def tokenize (text : String) : Except Error (List Token) := (scan text).outcome

end Token

end Formula
