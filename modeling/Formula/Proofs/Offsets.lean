import Formula.Proofs.Lexeme
import Formula.Token.Scan
import Mathlib.Data.String.Basic

/-!
# Scanning by byte offsets

A text need not be split into pieces before it is read. It is enough to pass over its characters
once and to remember the byte offset where the present operand begins; the operand is cut out of the
text when it ends. Cutting is possible only between offsets of the text that lie on the boundaries
of characters. The main statement says that it never fails, whatever the text, and that tokens and
events are those of the pieces.
-/

namespace Formula

namespace Traced

variable {α β : Type}

/-- One computation after another, either of which may not be defined. What is not reached need not
be defined. -/
def andThen? (first : Option (Traced α)) (next : α → Option (Traced β)) : Option (Traced β) := do
  let first ← first
  match first.outcome with
  | .error error => return ⟨.error error, first.events⟩
  | .ok value =>
      let second ← next value
      return ⟨second.outcome, first.events ++ second.events⟩

/-- Computations that are defined follow each other as usual. -/
theorem andThen?_some (first : Traced α) (next : α → Traced β) :
    andThen? (some first) (fun value => some (next value)) = some (first >>= next) := by
  obtain ⟨_ | value, events⟩ := first <;> rfl

end Traced

namespace Token

open String (utf8Len)
open String.Pos (Raw)

/-- The part of a text between two byte offsets. It is not defined if an offset lies beyond the
text or within a character, or if the second one comes before the first one. -/
def slice? (text : String) (start stop : Raw) : Option String :=
  if start.isValid text ∧ stop.isValid text ∧ start ≤ stop then some (start.extract text stop)
  else none

/-- Read the operand that began at some offset, if there is one, and ends at another one. -/
def flush? (text : String) (pending : Option Raw) (stop : Raw) : Option (Traced (List Token)) :=
  match pending with
  | none => some (pure [])
  | some start =>
      (slice? text start stop).map fun operand => do
        .report (.operand operand)
        let content ← Traced.silent (Operand.read operand.toList)
        return [.operand content]

/-- Read what is left of a text, from an offset on, where an operand may have begun before. -/
def scanFrom? (text : String) (pending : Option Raw) (offset : Raw) :
    List Char → Option (Traced (List Token))
  | [] => flush? text pending offset
  | c :: rest =>
      match Symbol.ofChar? c with
      | some content =>
          Traced.andThen? (flush? text pending offset) fun operand =>
            (scanFrom? text none (offset + c) rest).map fun later =>
              (operand ++ .symbol content :: ·) <$> later
      | none =>
          if Alphabet.isOperand c then scanFrom? text (pending.or (some offset)) (offset + c) rest
          else some (.fail (.invalidCharacter (Alphabet.describe c)))

/-- The tokens of a text, with the operands that were read on the way. -/
def scanByOffsets? (text : String) : Option (Traced (List Token)) :=
  Traced.andThen? (scanFrom? text none 0 text.toList) fun tokens =>
    some (match touching? tokens with
      | some near => .fail (.missingOperator near)
      | none => pure tokens)

/-! ## Offsets of characters -/

/-- The byte offset behind characters. -/
def behind (before : List Char) : Raw := ⟨utf8Len before⟩

theorem behind_concat (before : List Char) (c : Char) :
    behind (before ++ [c]) = behind before + c := by
  simp [behind, Raw.ext_iff]

theorem isValid_behind {text : String} {before after : List Char}
    (htext : text.toList = before ++ after) : (behind before).isValid text = true := by
  rw [Raw.isValid_eq_true_iff, Raw.isValid_iff_exists_append]
  refine ⟨.ofList before, .ofList after, ?_, ?_⟩
  · simp [← String.toList_inj, htext]
  · simp [behind]

/-- Characters that stand in a text can be cut out of it. -/
theorem slice?_behind {text : String} {before characters after : List Char}
    (htext : text.toList = before ++ (characters ++ after)) :
    slice? text (behind before) (behind (before ++ characters)) = some (.ofList characters) := by
  have hstart := isValid_behind htext
  rw [← List.append_assoc] at htext
  have hstop := isValid_behind htext
  have hle : behind before ≤ behind (before ++ characters) := by simp [behind, Raw.le_iff]
  have hextract := String.extract_of_valid before characters after
  rw [← htext, String.ofList_toList, ← String.utf8Len_append] at hextract
  rw [slice?, if_pos ⟨hstart, hstop, hle⟩]
  exact congrArg some hextract

/-! ## Reading by offsets -/

/-- The offset where the operand begins that is being passed over, if there is one. -/
def pendingAt (before characters : List Char) : Option Raw :=
  if characters = [] then none else some (behind before)

/-- The piece that is being passed over. -/
def passing (characters : List Char) : List Lexeme :=
  if characters = [] then [] else [.run characters]

theorem split_passing {characters : List Char}
    (hcharacters : ∀ c ∈ characters, Alphabet.isOperand c = true) :
    Lexeme.split characters = passing characters := by
  unfold passing
  split
  next hnil => rw [hnil, Lexeme.split]
  next hne =>
    simpa [Lexeme.split] using @Lexeme.split_run characters [] ⟨hne, hcharacters⟩

theorem ofLexemes_run {characters : List Char} {rest : List Lexeme}
    (hrest : ∀ c tail, rest = .stray c :: tail → False) :
    ofLexemes (.run characters :: rest) = (do
      Traced.report (.operand (.ofList characters))
      let content ← Traced.silent (Operand.read characters)
      (.operand content :: ·) <$> ofLexemes rest) := by
  rw [ofLexemes]
  exact hrest

theorem flush?_pendingAt {text : String} {before characters after : List Char}
    (htext : text.toList = before ++ (characters ++ after)) :
    flush? text (pendingAt before characters) (behind (before ++ characters)) =
      some (ofLexemes (passing characters)) := by
  unfold pendingAt passing
  split
  next => rfl
  next =>
    rw [flush?, slice?_behind htext, Option.map_some, String.toList_ofList, ofLexemes_run (by simp)]
    rfl

/-- An operand is read by itself and joined to what follows the symbol behind it. -/
theorem ofLexemes_passing_symbol (characters : List Char) (content : Symbol)
    (rest : List Lexeme) :
    (ofLexemes (passing characters) >>= fun operand =>
        (operand ++ .symbol content :: ·) <$> ofLexemes rest) =
      ofLexemes (passing characters ++ .symbol content :: rest) := by
  have hsymbol : ofLexemes (.symbol content :: rest) =
      (.symbol content :: ·) <$> ofLexemes rest := rfl
  unfold passing
  split
  next => rfl
  next =>
    rw [List.singleton_append, ofLexemes_run (by simp), ofLexemes_run (by simp), hsymbol]
    cases Operand.read characters with
    | error error => rfl
    | ok operand => rcases ofLexemes rest with ⟨_ | tokens, events⟩ <;> rfl

/-- Nothing is read when a stray character is met, not even the operand before it. -/
theorem ofLexemes_passing_stray (characters : List Char) (c : Char) (rest : List Lexeme) :
    ofLexemes (passing characters ++ .stray c :: rest) =
      .fail (.invalidCharacter (Alphabet.describe c)) := by
  unfold passing
  split <;> rfl

/-- Passing over a text, there are always characters that have been dealt with, those of the
operand that has begun, and those that are left. What is read from there on is what the pieces of
the latter two stand for. -/
theorem scanFrom?_eq {text : String} {before characters rest : List Char}
    (htext : text.toList = before ++ (characters ++ rest))
    (hcharacters : ∀ c ∈ characters, Alphabet.isOperand c = true) :
    scanFrom? text (pendingAt before characters) (behind (before ++ characters)) rest =
      some (ofLexemes (Lexeme.split (characters ++ rest))) := by
  induction rest generalizing before characters with
  | nil =>
      rw [scanFrom?, flush?_pendingAt htext, List.append_nil, split_passing hcharacters]
  | cons c rest ih =>
      have hflush := flush?_pendingAt htext
      cases hsymbol : Symbol.ofChar? c with
      | some content =>
          obtain rfl := Symbol.character_of_ofChar? hsymbol
          have hlater := @ih (before ++ characters ++ [content.character]) [] (by simp [htext])
            (by simp)
          rw [List.append_nil, behind_concat, show pendingAt _ [] = none from if_pos rfl,
            List.nil_append] at hlater
          simp only [scanFrom?, hsymbol, hflush, hlater, Option.map_some]
          rw [Traced.andThen?_some, ofLexemes_passing_symbol, Lexeme.split_append_symbol,
            split_passing hcharacters]
      | none =>
          by_cases hoperand : Alphabet.isOperand c = true
          · have hlater := @ih before (characters ++ [c]) (by simp [htext]) ?_
            · have hpending : (pendingAt before characters).or
                  (some (behind (before ++ characters))) = pendingAt before (characters ++ [c]) := by
                by_cases hnil : characters = [] <;> simp [pendingAt, hnil]
              rw [← List.append_assoc, behind_concat, ← hpending, List.append_assoc,
                List.singleton_append] at hlater
              simp only [scanFrom?, hsymbol, hoperand, if_true]
              exact hlater
            · simpa [or_imp, forall_and, hoperand] using hcharacters
          · have hstray : (Lexeme.stray c).WellFormed := ⟨Bool.eq_false_iff.mpr hoperand, hsymbol⟩
            simp only [scanFrom?, hsymbol, hoperand]
            rw [Lexeme.split_append (.inr (by simpa using hstray.1)), Lexeme.split_stray_cons hstray,
              split_passing hcharacters, ofLexemes_passing_stray]
            rfl

/-- Scanning by offsets never cuts outside of a text or within a character, and comes to the same
as reading the pieces of the text. -/
theorem scanByOffsets?_eq (text : String) : scanByOffsets? text = some (scan text) := by
  have hscan : scanFrom? text none 0 text.toList = some (ofLexemes (Lexeme.split text.toList)) :=
    @scanFrom?_eq text [] [] text.toList rfl (by simp)
  rw [scanByOffsets?, hscan, Traced.andThen?_some]
  rfl

end Token

end Formula
