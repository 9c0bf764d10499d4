import Formula.Proofs.Grammar

/-!
# Operands in a text

Where an operand stands in a text can be said without splitting the text: it is a row of operand
characters that could not be longer on either side. These rows are the runs among the pieces of the
text, and what a row stands for is fixed by the grammar of numerals and names.
-/

namespace Formula

/-- A row of operand characters in a text, as long as possible, with the text around it. -/
structure MaximalRun (text before characters after : List Char) : Prop where
  text_eq : text = before ++ (characters ++ after)
  ne_nil : characters ≠ []
  isOperand : ∀ c ∈ characters, Alphabet.isOperand c = true
  before_ends : ∀ c ∈ before.getLast?, Alphabet.isOperand c = false
  after_begins : ∀ c ∈ after.head?, Alphabet.isOperand c = false

namespace MaximalRun

open Lexeme (split spelling)

variable {text before characters after : List Char}

/-! ## Runs among the pieces -/

theorem wellFormed (hrun : MaximalRun text before characters after) :
    (Lexeme.run characters).WellFormed := ⟨hrun.ne_nil, hrun.isOperand⟩

theorem split_eq (hrun : MaximalRun text before characters after) :
    split text = split before ++ .run characters :: split after := by
  rw [hrun.text_eq, Lexeme.split_append (.inl hrun.before_ends),
    Lexeme.split_run hrun.wellFormed hrun.after_begins]

/-- A run among the pieces of a text is as long as possible, since its neighbours are no runs. -/
theorem of_split {earlier later : List Lexeme}
    (hsplit : split text = earlier ++ .run characters :: later) :
    MaximalRun text (earlier.flatMap spelling) characters (later.flatMap spelling) := by
  have hwell : ∀ piece ∈ split text, piece.WellFormed := Lexeme.wellFormed_of_mem_split
  have hchain := Lexeme.isChain_split text
  have htext := Lexeme.spell_split text
  rw [hsplit] at hwell hchain htext
  rw [List.forall_mem_append, List.forall_mem_cons] at hwell
  obtain ⟨hearlier, hrun, hlater⟩ := hwell
  rw [List.isChain_append, List.isChain_cons] at hchain
  obtain ⟨-, ⟨hnext, -⟩, hlast⟩ := hchain
  refine ⟨by simpa [spelling] using htext.symm, hrun.1, hrun.2, ?_, ?_⟩
  · intro c hc
    rcases List.eq_nil_or_concat earlier with rfl | ⟨first, piece, rfl⟩
    · simp at hc
    · have hpiece : piece.WellFormed := hearlier piece (by simp)
      have hapart := hlast piece (by simp) _ rfl
      rw [List.concat_eq_append, List.flatMap_append, List.flatMap_singleton,
        List.getLast?_append_of_ne_nil _ (Lexeme.spelling_ne_nil hpiece)] at hc
      apply Lexeme.isOperand_of_mem_spelling hpiece _ c (List.mem_of_getLast? hc)
      simpa [Lexeme.Apart, Lexeme.isRun] using hapart
  · intro c hc
    cases later with
    | nil => simp at hc
    | cons piece rest =>
        have hpiece : piece.WellFormed := hlater piece List.mem_cons_self
        have hapart := hnext piece rfl
        rw [List.flatMap_cons, List.head?_append_of_ne_nil _ (Lexeme.spelling_ne_nil hpiece)] at hc
        apply Lexeme.isOperand_of_mem_spelling hpiece _ c (List.mem_of_head? hc)
        simpa [Lexeme.Apart, Lexeme.isRun] using hapart

theorem iff_split_eq :
    MaximalRun text before characters after ↔
      split text = split before ++ .run characters :: split after := by
  constructor
  · exact split_eq
  · intro hsplit
    have hrun := of_split hsplit
    rwa [Lexeme.spell_split, Lexeme.spell_split] at hrun

instance : Decidable (MaximalRun text before characters after) :=
  decidable_of_iff _ iff_split_eq.symm

example : MaximalRun "x1+(2.5)".toList "x1+(".toList "2.5".toList ")".toList := by decide

theorem exists_iff_mem_split :
    (∃ before after, MaximalRun text before characters after) ↔ .run characters ∈ split text := by
  constructor
  · rintro ⟨before, after, hrun⟩
    simp [hrun.split_eq]
  · intro hmem
    obtain ⟨earlier, later, hsplit⟩ := List.append_of_mem hmem
    exact ⟨_, _, of_split hsplit⟩

/-! ## Runs that coincide -/

variable {before' characters' after' : List Char}

/-- Two runs of a text that end in the same place are the same. -/
theorem eq_of_length_eq (hrun : MaximalRun text before characters after)
    (hrun' : MaximalRun text before' characters' after')
    (hend : (before ++ characters).length = (before' ++ characters').length) :
    before = before' ∧ characters = characters' ∧ after = after' := by
  have htext : (before ++ characters) ++ after = (before' ++ characters') ++ after' := by
    rw [List.append_assoc, List.append_assoc, ← hrun.text_eq, hrun'.text_eq]
  obtain ⟨-, rfl⟩ := List.append_inj htext hend
  have hsplit : (split before ++ [.run characters]) ++ split after =
      (split before' ++ [.run characters']) ++ split after := by
    simpa using hrun.split_eq.symm.trans hrun'.split_eq
  obtain ⟨hbefore, hcharacters⟩ := List.append_inj' (List.append_cancel_right hsplit) rfl
  refine ⟨?_, by simpa using hcharacters, rfl⟩
  rw [← Lexeme.spell_split before, hbefore, Lexeme.spell_split]

/-- Two runs of a text that begin in the same place are the same. -/
theorem eq_of_before_length_eq (hrun : MaximalRun text before characters after)
    (hrun' : MaximalRun text before' characters' after') (hbegin : before.length = before'.length) :
    before = before' ∧ characters = characters' ∧ after = after' := by
  obtain ⟨rfl, -⟩ := List.append_inj (hrun.text_eq.symm.trans hrun'.text_eq) hbegin
  obtain ⟨hcharacters, hafter⟩ := List.cons.inj
    (List.append_cancel_left (hrun.split_eq.symm.trans hrun'.split_eq))
  refine ⟨rfl, Lexeme.run.inj hcharacters, ?_⟩
  rw [← Lexeme.spell_split after, hafter, Lexeme.spell_split]

/-! ## Runs and single pieces -/

/-- A run stands before a piece of the text, is that piece, or stands behind it. -/
theorem cases_of_split {earlier later : List Lexeme} {piece : Lexeme}
    (hrun : MaximalRun text before characters after)
    (hsplit : split text = earlier ++ piece :: later) :
    (.run characters ∈ earlier ∧ before.length < (earlier.flatMap spelling).length) ∨
      (piece = .run characters ∧ before = earlier.flatMap spelling ∧
        after = later.flatMap spelling) ∨
      ∃ between, before = earlier.flatMap spelling ++ (piece.spelling ++ between) := by
  have hpieces := hrun.split_eq.symm.trans hsplit
  rcases List.append_eq_append_iff.mp hpieces with ⟨between, hearlier, hrest⟩ |
    ⟨between, hbefore, hrest⟩
  · cases between with
    | nil =>
        obtain ⟨hpiece, hlater⟩ := List.cons.inj hrest
        refine .inr (.inl ⟨hpiece.symm, ?_, ?_⟩)
        · rw [hearlier, List.append_nil, Lexeme.spell_split]
        · rw [← hlater, Lexeme.spell_split]
    | cons first rest =>
        obtain ⟨rfl, -⟩ := List.cons.inj hrest
        have hpos := List.length_pos_iff.mpr hrun.ne_nil
        refine .inl ⟨by simp [hearlier], ?_⟩
        simp [hearlier, Lexeme.spell_split, spelling]
        omega
  · cases between with
    | nil =>
        obtain ⟨hpiece, hlater⟩ := List.cons.inj hrest
        refine .inr (.inl ⟨hpiece, ?_, ?_⟩)
        · rw [← Lexeme.spell_split before, hbefore, List.append_nil]
        · rw [hlater, Lexeme.spell_split]
    | cons first rest =>
        obtain ⟨rfl, -⟩ := List.cons.inj hrest
        refine .inr (.inr ⟨rest.flatMap spelling, ?_⟩)
        rw [← Lexeme.spell_split before, hbefore, List.flatMap_append, List.flatMap_cons]

end MaximalRun

/-! ## What operands stand for -/

namespace Operand

/-- What a row of operand characters stands for: a numeral for its value, a name for itself. -/
inductive Denoted : List Char → Operand → Prop where
  | numeral (numeral : Numeral) : Denoted numeral.characters (.number numeral.value)
  | name (name : Name) : Denoted name.characters (.name (.ofList name.characters))

variable {characters : List Char}

theorem Denoted.wellFormed {content : Operand} (hdenoted : Denoted characters content) :
    (Lexeme.run characters).WellFormed := by
  cases hdenoted with
  | numeral numeral => exact ⟨numeral.characters_ne_nil, numeral.isOperand_characters⟩
  | name name => exact ⟨name.characters_ne_nil, name.isOperand⟩

theorem read_eq_ok_iff (hrun : (Lexeme.run characters).WellFormed) {content : Operand} :
    read characters = .ok content ↔ Denoted characters content := by
  constructor
  · intro hread
    unfold read at hread
    split at hread
    next hstart =>
      split at hread
      next value hvalue =>
        obtain rfl := Except.ok.inj hread
        obtain ⟨numeral, rfl, rfl⟩ := (Numeral.read?_eq_some_iff hrun.2 hstart).mp hvalue
        exact .numeral numeral
      next => cases hread
    next hname =>
      obtain rfl := Except.ok.inj hread
      exact .name ⟨characters, hrun.1, hrun.2, Bool.eq_false_iff.mpr hname⟩
  · intro hdenoted
    cases hdenoted with
    | numeral numeral => exact Derivation.read_numeral numeral
    | name name => exact Derivation.read_name name

/-- Reading fails at a row of characters that begins like a number and is no numeral. -/
theorem read_eq_error_iff (hrun : (Lexeme.run characters).WellFormed) {error : Error} :
    read characters = .error error ↔
      characters.head?.any Alphabet.startsNumber = true ∧
      (∀ numeral : Numeral, numeral.characters ≠ characters) ∧
      error = .malformedNumber (.ofList characters) := by
  constructor
  · intro hread
    unfold read at hread
    split at hread
    next hstart =>
      split at hread
      next => cases hread
      next hnone =>
        refine ⟨hstart, ?_, (Except.error.inj hread).symm⟩
        rintro numeral rfl
        rw [(Numeral.read?_eq_some_iff hrun.2 hstart).mpr ⟨numeral, rfl, rfl⟩] at hnone
        cases hnone
    next => cases hread
  · rintro ⟨hstart, hnumeral, rfl⟩
    unfold read
    rw [if_pos hstart]
    cases hvalue : Numeral.read? characters with
    | none => rfl
    | some value =>
        obtain ⟨numeral, hcharacters, -⟩ := (Numeral.read?_eq_some_iff hrun.2 hstart).mp hvalue
        exact absurd hcharacters (hnumeral numeral)

theorem Denoted.unique {content content' : Operand} (hdenoted : Denoted characters content)
    (hdenoted' : Denoted characters content') (hrun : (Lexeme.run characters).WellFormed) :
    content = content' := by
  rw [← read_eq_ok_iff hrun] at hdenoted hdenoted'
  exact Except.ok.inj (hdenoted.symm.trans hdenoted')

end Operand

end Formula
