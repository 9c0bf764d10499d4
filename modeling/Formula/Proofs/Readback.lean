import Formula.Proofs.Spelling

/-!
# Programs read back from their texts

The text of a program is the texts of its tokens with a space between each two. No token has a space
in its text and none looks like one of another kind, so that the tokens can be read from the text
again. Texts of formulas that are written alike in the order of evaluation are therefore evaluated
alike. As in formulas, infinities are the exception.
-/

namespace Formula

/-- The symbol that a text consists of, if it is a single one. -/
def Symbol.ofText? : List Char → Option Symbol
  | [c] => ofChar? c
  | _ => none

/-- Operand characters are not those of symbols, be there one or more of them. -/
theorem Symbol.ofText?_eq_none {characters : List Char}
    (hoperand : ∀ c ∈ characters, Alphabet.isOperand c = true) :
    ofText? characters = none := by
  rcases characters with _ | ⟨c, _ | ⟨d, rest⟩⟩
  · rfl
  · refine Option.eq_none_iff_forall_ne_some.mpr fun content hcontent => ?_
    have hc := hoperand c List.mem_cons_self
    rw [← character_of_ofChar? hcontent, isOperand_character] at hc
    cases hc
  · rfl

namespace Token

/-- The token that a text by itself stands for: a symbol if it is the character of one, and an
operand otherwise. -/
def read (text : List Char) : Except Error Token :=
  match Symbol.ofText? text with
  | some content => .ok (.symbol content)
  | none => (Operand.read text).map .operand

/-- The tokens of a text with a space between each two. The empty text has none. -/
def readSpaced (text : String) : Except Error (List Token) :=
  if text = "" then .ok [] else (text.toList.splitOn ' ').mapM read

/-! ## Single tokens -/

/-- A token is read from its own text. Symbols always are. -/
def IsReadable : Token → Prop
  | operand content => Operand.Denoted content.text.toList content
  | symbol _ => True

theorem toList_text_symbol (content : Symbol) :
    (symbol content).text.toList = [content.character] := by
  simp [text, Char.toString]

theorem IsReadable.space_notMem {token : Token} (hreadable : token.IsReadable) :
    ' ' ∉ token.text.toList := by
  cases token with
  | operand content =>
      intro hspace
      have hoperand := hreadable.wellFormed.2 ' ' hspace
      exact absurd hoperand (by decide)
  | symbol content =>
      rw [toList_text_symbol, List.mem_singleton]
      rcases content with operator | side
      · cases operator <;> decide
      · cases side <;> decide

theorem IsReadable.text_ne_nil {token : Token} (hreadable : token.IsReadable) :
    token.text.toList ≠ [] := by
  cases token with
  | operand content => exact hreadable.wellFormed.1
  | symbol content => simp [toList_text_symbol]

theorem IsReadable.read_text {token : Token} (hreadable : token.IsReadable) :
    read token.text.toList = .ok token := by
  unfold read
  cases token with
  | operand content =>
      have hrun := hreadable.wellFormed
      have hread := (Operand.read_eq_ok_iff hrun).mpr hreadable
      have hnone := Symbol.ofText?_eq_none hrun.2
      change (match Symbol.ofText? content.text.toList with
        | some content => _
        | none => (Operand.read content.text.toList).map operand) = _
      rw [hnone, hread]
      rfl
  | symbol content =>
      have hsymbol : Symbol.ofText? (symbol content).text.toList = some content := by
        rw [toList_text_symbol]
        exact Symbol.ofChar?_character content
      rw [hsymbol]

/-! ## Rows of tokens -/

variable {tokens : List Token}

theorem mapM_read_text (hreadable : ∀ token ∈ tokens, token.IsReadable) :
    (tokens.map fun token => token.text.toList).mapM read = .ok tokens := by
  induction tokens with
  | nil => rfl
  | cons token rest ih =>
      obtain ⟨hfirst, hrest⟩ := List.forall_mem_cons.mp hreadable
      rw [List.map_cons, List.mapM_cons, hfirst.read_text, ih hrest]
      rfl

/-- Tokens that can be read from their own texts can also be read from these with spaces between
them. -/
theorem readSpaced_intercalate (hreadable : ∀ token ∈ tokens, token.IsReadable) :
    readSpaced (" ".intercalate (tokens.map text)) = .ok tokens := by
  cases tokens with
  | nil => rfl
  | cons token rest =>
      have hwords : (" ".intercalate ((token :: rest).map text)).toList.splitOn ' ' =
          (token :: rest).map fun token => token.text.toList := by
        rw [String.toList_intercalate, List.map_map]
        apply List.splitOn_intercalate
        · intro word hword
          obtain ⟨other, hother, rfl⟩ := List.mem_map.mp hword
          exact (hreadable other hother).space_notMem
        · exact List.cons_ne_nil _ _
      have hne : " ".intercalate ((token :: rest).map text) ≠ "" := by
        intro hempty
        rw [hempty] at hwords
        have hfirst : [] = token.text.toList := (List.cons.inj hwords).1
        exact (hreadable token List.mem_cons_self).text_ne_nil hfirst.symm
      rw [readSpaced, if_neg hne, hwords]
      exact mapM_read_text hreadable

end Token

/-! ## Numerals that are not too large -/

/-- All numerals in a text are those of finite numbers. -/
def Numeral.AllFinite (text : List Char) : Prop :=
  ∀ before after (numeral : Numeral), MaximalRun text before numeral.characters after →
    numeral.value.isFinite = true

namespace Program

variable {text : String} {program : Program}

theorem push_mem_iff {tokens : List Token} (hprogram : ofTokens tokens = .ok program)
    {content : Operand} : .push content ∈ program.instructions ↔ .operand content ∈ tokens := by
  rw [(perm_of_ofTokens hprogram).mem_iff, List.mem_filterMap]
  constructor
  · rintro ⟨token, htoken, hstep⟩
    rcases token with operand | operator | side
    · obtain rfl := Instruction.push.inj (Option.some.inj hstep)
      exact htoken
    · cases hstep
    · cases hstep
  · intro htoken
    exact ⟨_, htoken, rfl⟩

/-- The numerals in a text are finite exactly if the numbers in its program are. -/
theorem allFinite_iff (hprogram : ofText text = .ok program) :
    Numeral.AllFinite text.toList ↔
      ∀ value, .push (.number value) ∈ program.instructions → value.isFinite = true := by
  obtain ⟨tokens, htokens, hconverted⟩ := exists_tokens_of_ofText hprogram
  obtain ⟨hreads, -⟩ := Token.tokenize_eq_ok_iff.mp htokens
  simp only [push_mem_iff hconverted, Token.operand_mem_iff hreads]
  constructor
  · rintro hfinite value ⟨characters, hmem, hread⟩
    obtain ⟨before, after, hrun⟩ := MaximalRun.exists_iff_mem_split.mpr hmem
    cases (Operand.read_eq_ok_iff hrun.wellFormed).mp hread with
    | numeral numeral => exact hfinite before after numeral hrun
  · intro hfinite before after numeral hrun
    apply hfinite
    exact ⟨_, MaximalRun.exists_iff_mem_split.mp ⟨before, after, hrun⟩,
      Derivation.read_numeral numeral⟩

/-- The tokens of the program of a text can be read from their own texts. -/
theorem isReadable_of_ofText (hprogram : ofText text = .ok program)
    (hfinite : Numeral.AllFinite text.toList) : ∀ token ∈ program.tokens, token.IsReadable := by
  intro token htoken
  obtain ⟨instruction, hinstruction, rfl⟩ := List.mem_map.mp htoken
  cases instruction with
  | push content =>
      apply (legible_of_ofText hprogram content hinstruction).denoted_text
      rintro value rfl
      exact (allFinite_iff hprogram).mp hfinite value hinstruction
  | apply operator => trivial

end Program

/-- A step is known by its token, and a program by its tokens. -/
theorem Program.tokens_injective : Function.Injective tokens := by
  have htoken : Function.Injective Instruction.token := by
    rintro (operand | operator) (operand' | operator') heq
    · exact congrArg Instruction.push (Token.operand.inj heq)
    · cases heq
    · cases heq
    · exact congrArg Instruction.apply (Symbol.operator.inj (Token.symbol.inj heq))
  rintro ⟨steps⟩ ⟨steps'⟩ heq
  exact congrArg Program.mk (htoken.list_map heq)

/-- The program of a text can be read from what the text is converted to: its tokens are what stands
between the spaces. Texts that are converted to the same have thus the same program, and the same
value under all bindings, whatever the engines. This holds of texts without numerals that are too
large to be finite. -/
theorem Engine.readSpaced_convert {text : String} {program : Program}
    (hprogram : Program.ofText text = .ok program) (hfinite : Numeral.AllFinite text.toList) :
    (convert text).outcome = .ok program.text ∧
      Token.readSpaced program.text = .ok program.tokens ∧
      ∀ other, Numeral.AllFinite other.toList → (convert other).outcome = (convert text).outcome →
        Program.ofText other = .ok program ∧
          ∀ (engine engine' : Engine) (bindings : Bindings),
            (engine.evaluate {} other bindings).1.outcome =
              (engine'.evaluate {} text bindings).1.outcome := by
  have hread := Token.readSpaced_intercalate (Program.isReadable_of_ofText hprogram hfinite)
  have hconvert : (convert text).outcome = .ok program.text := by
    rw [outcome_convert, hprogram]
    rfl
  refine ⟨hconvert, hread, ?_⟩
  intro other hfinite' hsame
  rw [hconvert, outcome_convert, Except.map_eq_ok_iff] at hsame
  obtain ⟨program', hprogram', htext⟩ := hsame
  have hread' := Token.readSpaced_intercalate (Program.isReadable_of_ofText hprogram' hfinite')
  obtain rfl : program' = program := by
    apply Program.tokens_injective
    change Token.readSpaced program'.text = _ at hread'
    rw [htext] at hread'
    exact Except.ok.inj (hread'.symm.trans hread)
  refine ⟨hprogram', ?_⟩
  intro engine engine' bindings
  rw [outcome_evaluate_of_ofText _ hprogram', outcome_evaluate_of_ofText _ hprogram]

-- The text of an infinity is read as a name.
example : Token.readSpaced "inf" = .ok [.operand (.name "inf")] := by decide +kernel

/-- Two texts that differ in their parentheses and in how a number is written. -/
theorem Engine.readSpaced_convert_respelled :
    let program : Program := ⟨[.push (.name "a.2"), .push (.number 0.5), .apply .add,
      .push (.name "a.2"), .apply .multiply]⟩
    (convert "(a.2+.50)*a.2").outcome = .ok "a.2 0.5 + a.2 *" ∧
      Token.readSpaced "a.2 0.5 + a.2 *" = .ok program.tokens ∧
      ∀ (engine engine' : Engine) (bindings : Bindings),
        (engine.evaluate {} "((a.2)+0.5)*(a.2)" bindings).1.outcome =
          (engine'.evaluate {} "(a.2+.50)*a.2" bindings).1.outcome := by
  intro program
  have hprogram : Program.ofText "(a.2+.50)*a.2" = .ok program := by decide +kernel
  have hprogram' : Program.ofText "((a.2)+0.5)*(a.2)" = .ok program := by decide +kernel
  have htext : program.text = "a.2 0.5 + a.2 *" := by decide +kernel
  have hnumbers : ∀ value, .push (.number value) ∈ program.instructions →
      value.isFinite = true := by
    intro value hvalue
    obtain rfl : value = 0.5 := by simpa [program] using hvalue
    decide
  obtain ⟨hconvert, hread, hother⟩ :=
    readSpaced_convert hprogram ((Program.allFinite_iff hprogram).mpr hnumbers)
  obtain ⟨-, hvalues⟩ := hother "((a.2)+0.5)*(a.2)"
    ((Program.allFinite_iff hprogram').mpr hnumbers) (by decide +kernel)
  rw [htext] at hconvert hread
  exact ⟨hconvert, hread, hvalues⟩

end Formula
