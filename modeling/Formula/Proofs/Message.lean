import Formula.Proofs.Conservation
import Formula.Proofs.Sharing
import Mathlib.Tactic.IntervalCases

/-!
# Texts that keep to one line

Whatever a formula holds, there are no control characters in its value as text and in the message of
its error: characters that are controls are named, and all other parts of a message are made of
operands, symbols and fixed words. An answer therefore keeps to one line. The text of a value has no
colon in it either, so that it is never taken for a message.
-/

namespace Formula

/-- A text without control characters, which can stand in a line. -/
def Text.Inline (text : String) : Prop := ∀ c ∈ text.toList, Alphabet.isControl c = false

namespace Text

instance : DecidablePred Inline := fun text => List.decidableBAll _ text.toList

theorem inline_ofList_iff {characters : List Char} :
    Inline (.ofList characters) ↔ ∀ c ∈ characters, Alphabet.isControl c = false := by
  rw [Inline, String.toList_ofList]

@[simp]
theorem inline_append_iff {first second : String} :
    Inline (first ++ second) ↔ Inline first ∧ Inline second := by
  simp only [Inline, String.toList_append, List.mem_append, or_imp, forall_and]

theorem Inline.append {first second : String} (hfirst : Inline first) (hsecond : Inline second) :
    Inline (first ++ second) := inline_append_iff.mpr ⟨hfirst, hsecond⟩

theorem Inline.intercalate {separator : String} {texts : List String}
    (hseparator : Inline separator) (htexts : ∀ text ∈ texts, Inline text) :
    Inline (separator.intercalate texts) := by
  induction texts with
  | nil => exact fun c hc => by cases hc
  | cons text rest ih =>
      obtain ⟨htext, hrest⟩ := List.forall_mem_cons.mp htexts
      by_cases hnil : rest = []
      · rw [hnil, String.intercalate_singleton]
        exact htext
      · rw [String.intercalate_cons_of_ne_nil hnil]
        simp [htext, hseparator, ih hrest]

theorem Inline.newline_notMem {text : String} (hinline : Inline text) : '\n' ∉ text.toList := by
  intro hmem
  cases hinline '\n' hmem

end Text

open Text (Inline)

/-! ## Characters -/

namespace Alphabet

/-- The characters of operands are within the ASCII range. -/
theorem toNat_of_isOperand {c : Char} (hoperand : isOperand c = true) :
    0x2e ≤ c.toNat ∧ c.toNat ≤ 0x7a := by
  delta isOperand Char.isAlphanum Char.isAlpha Char.isUpper Char.isLower Char.isDigit at hoperand
  simp only [Bool.or_eq_true, Bool.and_eq_true, decide_eq_true_eq, UInt32.le_iff_toNat_le]
    at hoperand
  change ((((65 ≤ c.toNat ∧ c.toNat ≤ 90) ∨ (97 ≤ c.toNat ∧ c.toNat ≤ 122)) ∨
    (48 ≤ c.toNat ∧ c.toNat ≤ 57)) ∨ c = '_') ∨ c = '.' at hoperand
  rcases hoperand with (hletter | rfl) | rfl
  · omega
  · decide
  · decide

theorem isControl_of_isOperand {c : Char} (hoperand : isOperand c = true) :
    isControl c = false := by
  have hrange := toNat_of_isOperand hoperand
  simp only [isControl, Bool.or_eq_false_iff, Bool.and_eq_false_iff, decide_eq_false_iff_not]
  omega

theorem isOperand_digitChar {digit : Nat} (hdigit : digit < 16) :
    isOperand digit.digitChar.toUpper = true := by
  interval_cases digit <;> decide

theorem exists_digitChar_of_mem_toDigits {n : Nat} {c : Char} (hc : c ∈ Nat.toDigits 16 n) :
    ∃ digit < 16, c = digit.digitChar := by
  induction n using Nat.strong_induction_on with
  | _ n ih =>
      rw [Nat.toDigits_eq_if (by decide)] at hc
      split at hc
      next hlt => exact ⟨n, hlt, List.mem_singleton.mp hc⟩
      next hge =>
        rcases List.mem_append.mp hc with hbefore | hlast
        · exact ih (n / 16) (by omega) hbefore
        · exact ⟨n % 16, Nat.mod_lt n (by decide), List.mem_singleton.mp hlast⟩

theorem isOperand_of_mem_codePoint {c d : Char} (hd : d ∈ codePoint c) : isOperand d = true := by
  rcases List.mem_append.mp hd with hzero | hmem
  · obtain rfl := List.eq_of_mem_replicate hzero
    decide
  · obtain ⟨character, hcharacter, rfl⟩ := List.mem_map.mp hmem
    obtain ⟨digit, hdigit, rfl⟩ := exists_digitChar_of_mem_toDigits hcharacter
    exact isOperand_digitChar hdigit

/-- A name in brackets, of the characters of operands and the sign "plus". -/
def IsBracketed (description : String) : Prop :=
  ∃ name : List Char, name ≠ [] ∧ description.toList = '[' :: (name ++ [']']) ∧
    ∀ c ∈ name, isOperand c = true ∨ c = '+'

/-- The plain space and the controls are described by names in brackets. -/
theorem isBracketed_describe {c : Char} (hc : c = ' ' ∨ isControl c = true) :
    IsBracketed (describe c) := by
  have hword {name : List Char} (hname : (name.all fun c => isOperand c || c = '+') = true) :
      ∀ c ∈ name, isOperand c = true ∨ c = '+' := by simpa using hname
  unfold describe
  split_ifs with hspace _ _ _ hcontrol
  · exact ⟨"space".toList, by decide, by decide, hword rfl⟩
  · exact ⟨"tab".toList, by decide, by decide, hword rfl⟩
  · exact ⟨"newline".toList, by decide, by decide, hword rfl⟩
  · exact ⟨"return".toList, by decide, by decide, hword rfl⟩
  · refine ⟨'U' :: '+' :: codePoint c, List.cons_ne_nil _ _, ?_, ?_⟩
    · simp
    · refine List.forall_mem_cons.mpr ⟨.inl rfl, List.forall_mem_cons.mpr ⟨.inr rfl, ?_⟩⟩
      exact fun d hd => .inl (isOperand_of_mem_codePoint hd)
  · exact absurd hc (not_or.mpr ⟨hspace, hcontrol⟩)

/-- All other characters are described by themselves. -/
theorem describe_eq_self {c : Char} (hspace : c ≠ ' ') (hcontrol : isControl c = false) :
    describe c = .ofList [c] := by
  have hne (d : Char) (hd : isControl d = true) : c ≠ d := by
    rintro rfl
    exact Bool.noConfusion (hcontrol.symm.trans hd)
  rw [describe, if_neg hspace, if_neg (hne '\t' rfl), if_neg (hne '\n' rfl),
    if_neg (hne '\r' rfl), if_neg (Bool.eq_false_iff.mp hcontrol)]

theorem IsBracketed.inline {description : String} (hbracketed : IsBracketed description) :
    Inline description := by
  obtain ⟨name, -, hdescription, hname⟩ := hbracketed
  intro c hc
  rw [hdescription, List.mem_cons, List.mem_append, List.mem_singleton] at hc
  rcases hc with rfl | hmem | rfl
  · decide
  · rcases hname c hmem with hoperand | rfl
    · exact isControl_of_isOperand hoperand
    · decide
  · decide

/-- No description of a character has a control in it. -/
theorem inline_describe (c : Char) : Inline (describe c) := by
  by_cases hc : c = ' ' ∨ isControl c = true
  · exact (isBracketed_describe hc).inline
  · rw [not_or, Bool.not_eq_true] at hc
    rw [describe_eq_self hc.1 hc.2, Text.inline_ofList_iff]
    simpa using hc.2

end Alphabet

/-! ## Numbers and values -/

theorem Alphabet.isOperand_of_mem_toDigits {n : Nat} {c : Char} (hc : c ∈ Nat.toDigits 10 n) :
    isOperand c = true :=
  Numeral.isOperand_of_isDigit (Nat.isDigit_of_mem_toDigits (by decide) (by decide) hc)

@[simp]
theorem Text.inline_repr (n : Nat) : Inline n.repr := by
  intro c hc
  rw [Nat.toList_repr] at hc
  exact Alphabet.isControl_of_isOperand (Alphabet.isOperand_of_mem_toDigits hc)

namespace Layout

theorem mem_splitAtPoint {digits : List Char} {exponent : Int} {c : Char}
    (hc : c ∈ (splitAtPoint digits exponent).1 ++ (splitAtPoint digits exponent).2) :
    c ∈ digits ∨ c = '0' := by
  rcases exponent with exponent | places
  · rw [splitAtPoint, List.append_nil] at hc
    exact (List.mem_append.mp hc).imp_right List.eq_of_mem_replicate
  · rw [splitAtPoint, List.splitAt_eq, List.take_append_drop] at hc
    exact (List.mem_append.mp hc).symm.imp_right List.eq_of_mem_replicate

theorem mem_writtenOut {digits : List Char} {exponent : Int} {c : Char}
    (hc : c ∈ plain.writtenOut digits exponent) : c ∈ digits ∨ c = '0' ∨ c = '.' := by
  have hsplit : c ∈ (splitAtPoint digits exponent).1 ++ (splitAtPoint digits exponent).2 ∨
      c = '.' := by
    unfold writtenOut at hc
    rcases hparts : splitAtPoint digits exponent with ⟨whole, _ | ⟨d, fraction⟩⟩ <;>
      rw [hparts] at hc
    · exact .inl hc
    · rcases List.mem_append.mp hc with hwhole | hfraction
      · exact .inl (List.mem_append_left _ hwhole)
      · exact (List.mem_cons.mp hfraction).symm.imp_left (List.mem_append_right _)
  rcases hsplit with hmem | hpoint
  · exact (mem_splitAtPoint hmem).imp_right .inl
  · exact .inr (.inr hpoint)

theorem isOperand_of_mem_rankText {rank : Nat} {c : Char} (hc : c ∈ plain.rankText rank) :
    Alphabet.isOperand c = true := by
  unfold rankText at hc
  split at hc
  · have hword : ∀ c ∈ ['i', 'n', 'f'], Alphabet.isOperand c = true := List.all_eq_true.mp rfl
    exact hword c hc
  · rcases mem_writtenOut hc with hdigit | rfl | rfl
    · exact Alphabet.isOperand_of_mem_toDigits hdigit
    · decide
    · decide

/-- The characters of numbers are those of operands and the sign "minus". -/
theorem mem_characters {x : Float} {c : Char} (hc : c ∈ plain.characters x) :
    Alphabet.isOperand c = true ∨ c = '-' := by
  unfold characters at hc
  dsimp only at hc
  split_ifs at hc
  · have hword : ∀ c ∈ ['N', 'a', 'N'], Alphabet.isOperand c = true := List.all_eq_true.mp rfl
    exact .inl (hword c hc)
  · exact (List.mem_cons.mp hc).symm.imp_left isOperand_of_mem_rankText
  · exact .inl (isOperand_of_mem_rankText hc)

theorem inline_text (x : Float) : Inline (plain.text x) := by
  refine Text.inline_ofList_iff.mpr fun c hc => ?_
  rcases mem_characters hc with hoperand | rfl
  · exact Alphabet.isControl_of_isOperand hoperand
  · decide

end Layout

theorem Value.inline_text (value : Value) : Inline value.text := by
  cases value with
  | number number => exact Layout.inline_text number
  | empty => decide

/-- The text of a value is told from messages by having no colon in it. -/
theorem Value.colon_notMem (value : Value) : ':' ∉ value.text.toList := by
  cases value with
  | number number =>
      intro hcolon
      rw [text, Layout.text, String.toList_ofList] at hcolon
      rcases Layout.mem_characters hcolon with hoperand | hsign
      · cases hoperand
      · cases hsign
  | empty => decide

/-! ## Operands and symbols -/

/-- A name is made of the characters of operands. -/
def Operand.IsSpelled : Operand → Prop
  | number _ => True
  | name word => ∀ c ∈ word.toList, Alphabet.isOperand c = true

theorem Operand.IsSpelled.inline_text {operand : Operand} (hspelled : operand.IsSpelled) :
    Inline operand.text := by
  cases operand with
  | number value => exact Layout.inline_text value
  | name word => exact fun c hc => Alphabet.isControl_of_isOperand (hspelled c hc)

theorem Operand.isSpelled_of_read {characters : List Char} {content : Operand}
    (hoperand : ∀ c ∈ characters, Alphabet.isOperand c = true)
    (hread : Operand.read characters = .ok content) : content.IsSpelled := by
  unfold read at hread
  split at hread
  · split at hread
    · obtain rfl := Except.ok.inj hread
      trivial
    · cases hread
  · obtain rfl := Except.ok.inj hread
    rw [IsSpelled, String.toList_ofList]
    exact hoperand

theorem Operand.error_of_read {characters : List Char} {error : Error}
    (hread : Operand.read characters = .error error) :
    error = .malformedNumber (.ofList characters) := by
  unfold read at hread
  split at hread
  · split at hread
    · cases hread
    · exact (Except.error.inj hread).symm
  · cases hread

theorem Symbol.inline_character (symbol : Symbol) : Inline symbol.character.toString := by
  rcases symbol with op | side
  · cases op <;> decide
  · cases side <;> decide

/-! ## Tokens and their faults -/

namespace Token

/-- Reading pieces fails at a stray character, or at a run that begins like a number and is none. -/
theorem error_of_ofLexemes {pieces : List Lexeme} {error : Error}
    (herror : (ofLexemes pieces).outcome = .error error) :
    (∃ c, error = .invalidCharacter (Alphabet.describe c)) ∨
      ∃ characters, .run characters ∈ pieces ∧ error = .malformedNumber (.ofList characters) := by
  induction pieces with
  | nil => cases herror
  | cons piece rest ih =>
      have hlater (token : Token)
          (hrest : (ofLexemes rest).outcome.map (token :: ·) = .error error) :
          (∃ c, error = .invalidCharacter (Alphabet.describe c)) ∨
            ∃ characters, .run characters ∈ piece :: rest ∧
              error = .malformedNumber (.ofList characters) := by
        refine (ih (Except.map_eq_error_iff.mp hrest)).imp_right ?_
        rintro ⟨characters, hmem, rfl⟩
        exact ⟨characters, List.mem_cons_of_mem _ hmem, rfl⟩
      cases piece with
      | stray c => exact .inl ⟨c, (Except.error.inj herror).symm⟩
      | symbol content =>
          rw [outcome_ofLexemes_symbol] at herror
          exact hlater _ herror
      | run characters =>
          by_cases hstray : ∃ c tail, rest = .stray c :: tail
          · obtain ⟨c, tail, rfl⟩ := hstray
            exact .inl ⟨c, (Except.error.inj herror).symm⟩
          · rw [outcome_ofLexemes_run fun c tail htail => hstray ⟨c, tail, htail⟩] at herror
            rcases Except.bind_eq_error_iff.mp herror with hread | ⟨content, _, hrest⟩
            · exact .inr ⟨characters, List.mem_cons_self, Operand.error_of_read hread⟩
            · exact hlater _ hrest

/-- What a token is about is spelled with the characters of operands. -/
def IsSpelled : Token → Prop
  | operand content => content.IsSpelled
  | symbol _ => True

theorem IsSpelled.inline_text {token : Token} (hspelled : token.IsSpelled) :
    Inline token.text := by
  cases token with
  | operand content => exact Operand.IsSpelled.inline_text hspelled
  | symbol content => exact content.inline_character

theorem isSpelled_of_reads {pieces : List Lexeme} {tokens : List Token}
    (hwell : ∀ piece ∈ pieces, piece.WellFormed)
    (hreads : List.Forall₂ Lexeme.Reads pieces tokens) : ∀ token ∈ tokens, token.IsSpelled := by
  intro token htoken
  cases token with
  | symbol content => trivial
  | operand content =>
      obtain ⟨characters, hrun, hread⟩ := (operand_mem_iff hreads).mp htoken
      exact Operand.isSpelled_of_read (hwell _ hrun).2 hread

theorem isSpelled_of_tokenize {text : String} {tokens : List Token}
    (htokens : tokenize text = .ok tokens) : ∀ token ∈ tokens, token.IsSpelled :=
  isSpelled_of_reads Lexeme.wellFormed_of_mem_split (tokenize_eq_ok_iff.mp htokens).1

/-- The place where an operand meets a parenthesis is reported by the two of them. -/
theorem inline_of_touching? {tokens : List Token} (hspelled : ∀ token ∈ tokens, token.IsSpelled)
    {near : String} (htouching : touching? tokens = some near) : Inline near := by
  obtain ⟨before, left, right, after, rfl, -, rfl, -⟩ := exists_of_touching?_eq_some htouching
  have hleft : left.IsSpelled := hspelled left (by simp)
  have hright : right.IsSpelled := hspelled right (by simp)
  exact hleft.inline_text.append hright.inline_text

theorem inline_message_of_tokenize {text : String} {error : Error}
    (herror : tokenize text = .error error) : Inline error.message := by
  rcases tokenize_eq_error_iff.mp herror with hread | ⟨tokens, near, hreads, hnear, rfl⟩
  · rcases error_of_ofLexemes hread with ⟨c, rfl⟩ | ⟨characters, hrun, rfl⟩
    · exact Inline.append (by decide) (Alphabet.inline_describe c)
    · obtain ⟨_, hoperand⟩ := Lexeme.wellFormed_of_mem_split _ hrun
      refine Inline.append (by decide) (Text.inline_ofList_iff.mpr fun c hc => ?_)
      exact Alphabet.isControl_of_isOperand (hoperand c hc)
  · have hspelled := isSpelled_of_reads Lexeme.wellFormed_of_mem_split hreads
    exact Inline.append (by decide) (inline_of_touching? hspelled hnear)

end Token

/-! ## Programs and their faults -/

namespace Program

theorem isSpelled_of_ofText {text : String} {program : Program}
    (hprogram : ofText text = .ok program) : ∀ token ∈ program.tokens, token.IsSpelled := by
  rw [ofText_eq] at hprogram
  obtain ⟨tokens, htokens, hconverted⟩ := Except.bind_eq_ok_iff.mp hprogram
  intro token htoken
  exact Token.isSpelled_of_tokenize htokens token (mem_of_ofTokens hconverted token htoken)

variable {program : Program} (hspelled : ∀ token ∈ program.tokens, token.IsSpelled)
include hspelled

theorem inline_text : Inline program.text := by
  refine Inline.intercalate (by decide) fun text htext => ?_
  obtain ⟨token, htoken, rfl⟩ := List.mem_map.mp htext
  exact (hspelled token htoken).inline_text

theorem inline_of_mem_names {name : String}
    (hname : name ∈ program.instructions.filterMap Instruction.name?) : Inline name := by
  obtain ⟨instruction, hinstruction, hfound⟩ := List.mem_filterMap.mp hname
  have htoken := hspelled _ (List.mem_map_of_mem hinstruction)
  rcases instruction with (value | word) | operator
  · cases hfound
  · obtain rfl := Option.some.inj hfound
    have hword : (Operand.name word).IsSpelled := htoken
    exact hword.inline_text
  · cases hfound

theorem inline_message_of_run {bindings : Bindings} {error : Error}
    (herror : program.run bindings = .error error) : Inline error.message := by
  have htext := inline_text hspelled
  rcases cases_of_run_error herror with ⟨name, hname, rfl⟩ | ⟨operator, rfl⟩ | ⟨count, rfl⟩
  · exact Inline.append (by decide) (inline_of_mem_names hspelled hname)
  · have hoperator : Inline operator.character.toString :=
      (Symbol.operator operator).inline_character
    refine Inline.append (by decide) ?_
    simp only [Text.inline_append_iff, hoperator, htext, and_true]
    decide
  · refine Inline.append (by decide) ?_
    simp only [Text.inline_append_iff, Text.inline_repr, htext, and_true, true_and]
    decide

omit hspelled in
theorem inline_message_of_ofText {text : String} {error : Error}
    (herror : ofText text = .error error) : Inline error.message := by
  rw [ofText_eq] at herror
  rcases Except.bind_eq_error_iff.mp herror with htokens | ⟨tokens, _, hconverted⟩
  · exact Token.inline_message_of_tokenize htokens
  · obtain ⟨side, rfl⟩ := error_of_ofTokens hconverted
    cases side <;> decide

end Program

/-! ## Engines and their answers -/

namespace Engine

variable {engine : Engine} {cache : Cache} {text : String} {bindings : Bindings} {error : Error}

theorem inline_message_of_compile (herror : (engine.compile cache text).1.outcome = .error error) :
    Inline error.message := by
  rw [outcome_compile] at herror
  split at herror
  · cases herror
  · exact Program.inline_message_of_ofText herror

theorem inline_message_of_convert (herror : (convert text).outcome = .error error) :
    Inline error.message := by
  rw [outcome_convert, Except.map_eq_error_iff] at herror
  exact Program.inline_message_of_ofText herror

/-- The program of a text is spelled with the characters of operands, also if it was found in a
cache. -/
theorem isSpelled_of_compile (hsound : cache.Sound) {program : Program}
    (hprogram : (engine.compile cache text).1.outcome = .ok program) :
    ∀ token ∈ program.tokens, token.IsSpelled := by
  rw [outcome_compile] at hprogram
  split at hprogram
  next hstored =>
    obtain rfl := Except.ok.inj hprogram
    exact Program.isSpelled_of_ofText (hsound.eq_of_stored? hstored)
  next => exact Program.isSpelled_of_ofText hprogram

theorem inline_message_of_evaluate (hsound : cache.Sound)
    (herror : (engine.evaluate cache text bindings).1.outcome = .error error) :
    Inline error.message := by
  by_cases hempty : text = ""
  · subst hempty
    cases herror
  · rw [engine.outcome_evaluate cache hempty] at herror
    rcases Except.bind_eq_error_iff.mp herror with hcompile | ⟨program, hprogram, hrun⟩
    · exact inline_message_of_compile hcompile
    · exact Program.inline_message_of_run (isSpelled_of_compile hsound hprogram) hrun

/-- Whatever engines have done with the cache that they share, the message of an error has no
control characters, be it the error of an evaluation, of a compilation or of a conversion. -/
theorem inline_messages (calls : List (Engine × Call)) (engine : Engine) (text : String)
    (bindings : Bindings) :
    let cache := Cache.afterAll {} calls
    (∀ error, (engine.evaluate cache text bindings).1.outcome = .error error →
      Inline error.message) ∧
    (∀ error, (engine.compile cache text).1.outcome = .error error → Inline error.message) ∧
    ∀ error, (convert text).outcome = .error error → Inline error.message :=
  ⟨fun _ => inline_message_of_evaluate (Cache.sound_empty.afterAll calls),
    fun _ => inline_message_of_compile, fun _ => inline_message_of_convert⟩

-- A report of a run has the text of the program in it.
example : (evaluate {} {} "rate*(1-)" fun _ => some 2).1.outcome =
    .error (.internal "stack underflow at operator '*' in `rate 1 - *`") := by
  decide +kernel

end Engine

end Formula
