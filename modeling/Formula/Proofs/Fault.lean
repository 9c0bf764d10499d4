import Formula.Proofs.Balance
import Formula.Proofs.Engine

/-!
# Which fault is reported

A text may have several faults, and one of them is reported. Faults of single characters and numbers
go first, the leftmost one of them before the others. A number is at fault behind its last
character, where it is known to be complete; if a character without a meaning stands there, that one
is reported. Then come operands that touch a parenthesis, again the leftmost parenthesis first, and
last of all parentheses without a partner. Nothing else can be wrong with a text.
-/

namespace Formula

open Lexeme (Reads split spelling)

/-! ## Faults and their places -/

/-- What can be wrong with single parts of a text, and where: a character of neither alphabet, where
it stands, and a row of operand characters that begins like a number and is none, right behind it. -/
inductive Offence (text : List Char) (position : Nat) : Error → Prop where
  | stray {before after : List Char} {c : Char} (htext : text = before ++ c :: after)
      (hoperand : Alphabet.isOperand c = false)
      (hsymbol : c ∉ ['+', '-', '*', '/', '^', '(', ')']) (hposition : before.length = position) :
      Offence text position (.invalidCharacter (Alphabet.describe c))
  | malformed {before characters after : List Char}
      (hrun : MaximalRun text before characters after)
      (hstart : characters.head?.any Alphabet.startsNumber = true)
      (hnumeral : ∀ numeral : Numeral, numeral.characters ≠ characters)
      (hposition : (before ++ characters).length = position) :
      Offence text position (.malformedNumber (.ofList characters))

/-- The leftmost of the offences of a text. Where there are two in one place, it is the character
without a meaning. -/
def FirstOffence (text : List Char) (error : Error) : Prop :=
  ∃ position, Offence text position error ∧
    (∀ other fault, Offence text other fault → position ≤ other) ∧
    ∀ description, Offence text position (.invalidCharacter description) →
      error = .invalidCharacter description

/-- A parenthesis that an operand touches from outside, where it stands, and what the two look
like. -/
inductive Contact (text : List Char) (position : Nat) : String → Prop where
  | opening {before characters after : List Char} {content : Operand}
      (hrun : MaximalRun text before characters ('(' :: after))
      (hdenoted : Operand.Denoted characters content)
      (hposition : (before ++ characters).length = position) :
      Contact text position (content.text ++ "(")
  | closing {before characters after : List Char} {content : Operand}
      (hrun : MaximalRun text (before ++ [')']) characters after)
      (hdenoted : Operand.Denoted characters content) (hposition : before.length = position) :
      Contact text position (")" ++ content.text)

/-- The leftmost of the parentheses of a text that operands touch from outside. -/
def FirstContact (text : List Char) (near : String) : Prop :=
  ∃ position, Contact text position near ∧
    ∀ other near', Contact text other near' → position ≤ other

variable {text : List Char} {position : Nat} {error : Error} {near : String}
  {earlier later earlier' later' : List Lexeme} {piece piece' : Lexeme}

/-- A fault of a character is one of the character that stands in its place. -/
theorem Offence.describe_eq {description : String} {before after : List Char}
    (hoffence : Offence text position (.invalidCharacter description))
    (htext : text = before ++ after) (hposition : before.length = position) :
    ∃ c rest, after = c :: rest ∧ (Lexeme.stray c).WellFormed ∧
      description = Alphabet.describe c := by
  cases hoffence with
  | @stray before' rest c htext' hoperand hsymbol hposition' =>
      obtain ⟨-, hafter⟩ := List.append_inj (htext.symm.trans htext')
        (hposition.trans hposition'.symm)
      exact ⟨c, rest, hafter, ⟨hoperand, Symbol.ofChar?_eq_none_iff.mpr hsymbol⟩, rfl⟩

theorem FirstOffence.unique {error' : Error} (hfirst : FirstOffence text error)
    (hfirst' : FirstOffence text error') : error = error' := by
  obtain ⟨position, hoffence, hleast, hcharacter⟩ := hfirst
  obtain ⟨position', hoffence', hleast', hcharacter'⟩ := hfirst'
  obtain rfl : position = position' :=
    Nat.le_antisymm (hleast _ _ hoffence') (hleast' _ _ hoffence)
  cases hoffence with
  | stray htext hoperand hsymbol hposition =>
      exact (hcharacter' _ (.stray htext hoperand hsymbol hposition)).symm
  | malformed hrun _ _ hposition =>
      cases hoffence' with
      | stray htext hoperand hsymbol hposition =>
          exact hcharacter _ (.stray htext hoperand hsymbol hposition)
      | malformed hrun' _ _ hposition' =>
          rw [(hrun.eq_of_length_eq hrun' (hposition.trans hposition'.symm)).2.1]

theorem FirstContact.unique {near' : String} (hfirst : FirstContact text near)
    (hfirst' : FirstContact text near') : near = near' := by
  obtain ⟨position, hcontact, hleast⟩ := hfirst
  obtain ⟨position', hcontact', hleast'⟩ := hfirst'
  obtain rfl : position = position' :=
    Nat.le_antisymm (hleast _ _ hcontact') (hleast' _ _ hcontact)
  -- The parenthesis in that place is one of the two, so that the operand is on the same side.
  have hdiffer {before characters after before' characters' after' : List Char}
      (hrun : MaximalRun text before characters ('(' :: after))
      (hrun' : MaximalRun text (before' ++ [')']) characters' after')
      (hposition : (before ++ characters).length = before'.length) : False := by
    have htext : (before ++ characters) ++ '(' :: after =
        before' ++ ')' :: (characters' ++ after') := by
      rw [List.append_assoc, ← hrun.text_eq, hrun'.text_eq]
      simp
    simpa using (List.append_inj htext hposition).2
  cases hcontact with
  | opening hrun hdenoted hposition =>
      cases hcontact' with
      | opening hrun' hdenoted' hposition' =>
          obtain ⟨-, rfl, -⟩ := hrun.eq_of_length_eq hrun' (hposition.trans hposition'.symm)
          rw [hdenoted.unique hdenoted' hrun.wellFormed]
      | closing hrun' _ hposition' =>
          exact (hdiffer hrun hrun' (hposition.trans hposition'.symm)).elim
  | closing hrun hdenoted hposition =>
      cases hcontact' with
      | opening hrun' _ hposition' =>
          exact (hdiffer hrun' hrun (hposition'.trans hposition.symm)).elim
      | closing hrun' hdenoted' hposition' =>
          have hlength := hposition.trans hposition'.symm
          obtain ⟨-, rfl, -⟩ := hrun.eq_of_before_length_eq hrun' (by simpa using hlength)
          rw [hdenoted.unique hdenoted' hrun.wellFormed]

/-! ## Places of pieces -/

/-- The part of a text up to the place where a fault of one of its pieces is noticed: behind a run,
and before any other piece. -/
def upTo (earlier : List Lexeme) (piece : Lexeme) : List Char :=
  earlier.flatMap spelling ++ if piece.isRun then piece.spelling else []

theorem prefix_of_length_lt (hsplit : split text = earlier ++ piece :: later)
    (hsplit' : split text = earlier' ++ later') (hlength : earlier.length < earlier'.length) :
    earlier ++ [piece] <+: earlier' := by
  rw [List.append_cons] at hsplit
  apply List.prefix_of_prefix_length_le (hsplit ▸ List.prefix_append _ _)
    (hsplit' ▸ List.prefix_append _ _)
  simp
  omega

/-- What is noticed about one piece of a text is not noticed behind what is noticed about a later
one. -/
theorem length_upTo_le (hsplit : split text = earlier ++ piece :: later)
    (hsplit' : split text = earlier' ++ piece' :: later')
    (hlength : earlier.length ≤ earlier'.length) :
    (upTo earlier piece).length ≤ (upTo earlier' piece').length := by
  rcases hlength.eq_or_lt with heq | hlt
  · obtain ⟨rfl, hpieces⟩ := List.append_inj (hsplit.symm.trans hsplit') heq
    rw [(List.cons.inj hpieces).1]
  · obtain ⟨between, rfl⟩ := prefix_of_length_lt hsplit hsplit' hlt
    unfold upTo
    split <;> simp

/-! ## Pieces that cannot be read -/

theorem Offence.exists_split (hoffence : Offence text position error) :
    ∃ earlier piece later, split text = earlier ++ piece :: later ∧
      (¬ ∃ token, Reads piece token) ∧ (upTo earlier piece).length = position := by
  cases hoffence with
  | @stray before after c htext hoperand hsymbol hposition =>
      have hstray : (Lexeme.stray c).WellFormed :=
        ⟨hoperand, Symbol.ofChar?_eq_none_iff.mpr hsymbol⟩
      refine ⟨split before, .stray c, split after, ?_, ?_, ?_⟩
      · rw [htext, Lexeme.split_append (.inr (by simpa using hoperand)),
          Lexeme.split_stray_cons hstray]
      · rintro ⟨token, hread⟩
        cases hread
      · simpa [upTo, Lexeme.spell_split, Lexeme.isRun] using hposition
  | @malformed before characters after hrun hstart hnumeral hposition =>
      refine ⟨split before, .run characters, split after, hrun.split_eq, ?_, ?_⟩
      · rintro ⟨token, hread⟩
        cases hread with
        | run hread =>
            rw [(Operand.read_eq_error_iff hrun.wellFormed).mpr ⟨hstart, hnumeral, rfl⟩] at hread
            cases hread
      · simpa [upTo, Lexeme.spell_split, Lexeme.isRun, spelling] using hposition

/-- There is no offence in a text exactly if all of its pieces can be read. -/
theorem forall_not_offence_iff :
    (∀ position error, ¬ Offence text position error) ↔
      ∃ tokens, List.Forall₂ Reads (split text) tokens := by
  rw [Lexeme.exists_reads_split_iff]
  constructor
  · intro hnone
    constructor
    · intro c hc
      by_contra hneither
      rw [not_or, Bool.not_eq_true] at hneither
      obtain ⟨before, after, htext⟩ := List.append_of_mem hc
      exact hnone _ _ (.stray htext hneither.1 hneither.2 rfl)
    · intro before characters after hrun hstart
      by_contra hnumeral
      exact hnone _ _ (.malformed hrun hstart (not_exists.mp hnumeral) rfl)
  · rintro ⟨hcharacters, hruns⟩ position error hoffence
    cases hoffence with
    | @stray before after c htext hoperand hsymbol _ =>
        rcases hcharacters c (by simp [htext]) with h | h
        · simp [hoperand] at h
        · exact hsymbol h
    | malformed hrun hstart hnumeral _ =>
        obtain ⟨numeral, hcharacters⟩ := hruns _ _ _ hrun hstart
        exact hnumeral numeral hcharacters

/-- Pieces that can be read make no difference to the fault of those that follow. -/
theorem Token.outcome_ofLexemes_append {rest : List Lexeme}
    (hearlier : ∀ piece ∈ earlier, ∃ token, Reads piece token)
    (herror : (ofLexemes rest).outcome = .error error) :
    (ofLexemes (earlier ++ rest)).outcome = .error error := by
  induction earlier with
  | nil => exact herror
  | cons piece earlier ih =>
      rw [List.forall_mem_cons] at hearlier
      obtain ⟨⟨token, hread⟩, hearlier⟩ := hearlier
      have hlater := ih hearlier
      rw [List.cons_append]
      cases hread with
      | symbol content => rw [outcome_ofLexemes_symbol, hlater, Except.map]
      | @run characters content hread =>
          by_cases hstray : ∃ c tail, earlier ++ rest = .stray c :: tail
          · obtain ⟨c, tail, htail⟩ := hstray
            rw [htail] at hlater ⊢
            exact hlater
          · rw [outcome_ofLexemes_run fun c tail htail => hstray ⟨c, tail, htail⟩, hread, hlater]
            rfl

section first

variable (hsplit : split text = earlier ++ piece :: later)
  (hearlier : ∀ piece ∈ earlier, ∃ token, Reads piece token)
include hsplit hearlier

/-- No offence comes before a piece if all pieces before that one can be read. -/
theorem length_upTo_le_of_offence {other : Nat} {fault : Error}
    (hoffence : Offence text other fault) : (upTo earlier piece).length ≤ other := by
  obtain ⟨earlier', piece', later', hsplit', hpiece', rfl⟩ := hoffence.exists_split
  apply length_upTo_le hsplit hsplit'
  by_contra hlt
  obtain ⟨between, rfl⟩ := prefix_of_length_lt hsplit' hsplit (Nat.lt_of_not_le hlt)
  exact hpiece' (hearlier piece' (by simp))

/-- Which of two offences in one place counts depends on the character that stands there. -/
theorem firstOffence_of_offence {after : List Char} (htext : text = upTo earlier piece ++ after)
    (hoffence : Offence text (upTo earlier piece).length error)
    (hcharacter : ∀ c rest, after = c :: rest → (Lexeme.stray c).WellFormed →
      error = .invalidCharacter (Alphabet.describe c)) : FirstOffence text error := by
  refine ⟨_, hoffence, fun _ _ => length_upTo_le_of_offence hsplit hearlier, ?_⟩
  intro description hdescription
  obtain ⟨c, rest, hafter, hstray, rfl⟩ := hdescription.describe_eq htext rfl
  exact hcharacter c rest hafter hstray

theorem firstOffence_of_stray {c : Char} {rest : List Char}
    (htext : text = upTo earlier piece ++ c :: rest) (hstray : (Lexeme.stray c).WellFormed) :
    FirstOffence text (.invalidCharacter (Alphabet.describe c)) := by
  apply firstOffence_of_offence hsplit hearlier htext
  · exact .stray htext hstray.1 (Symbol.ofChar?_eq_none_iff.mp hstray.2) rfl
  · intro d rest' hd _
    rw [(List.cons.inj hd).1]

/-- The first piece of a text that cannot be read is noticed at the first offence, and the reading
of the pieces fails there. -/
theorem exists_firstOffence (hpiece : ¬ ∃ token, Reads piece token) :
    ∃ error, (Token.ofLexemes (piece :: later)).outcome = .error error ∧
      FirstOffence text error := by
  have hwell : ∀ piece ∈ split text, piece.WellFormed := Lexeme.wellFormed_of_mem_split
  have htext := (Lexeme.spell_split text).symm
  rw [hsplit, List.flatMap_append, List.flatMap_cons] at htext
  cases piece with
  | symbol content => exact absurd ⟨_, .symbol content⟩ hpiece
  | stray c =>
      have hat : text = upTo earlier (.stray c) ++ c :: later.flatMap spelling := by
        simpa [upTo, Lexeme.isRun, spelling] using htext
      exact ⟨_, rfl, firstOffence_of_stray hsplit hearlier hat (hwell _ (by simp [hsplit]))⟩
  | run characters =>
      have hat : text = upTo earlier (.run characters) ++ later.flatMap spelling := by
        simpa [upTo, Lexeme.isRun, spelling] using htext
      by_cases hstray : ∃ c tail, later = .stray c :: tail
      · obtain ⟨c, tail, rfl⟩ := hstray
        exact ⟨_, rfl, firstOffence_of_stray hsplit hearlier hat (hwell _ (by simp [hsplit]))⟩
      · have hrun := MaximalRun.of_split hsplit
        cases hread : Operand.read characters with
        | ok content => exact absurd ⟨_, .run hread⟩ hpiece
        | error error =>
            have hfault : (Token.ofLexemes (.run characters :: later)).outcome = .error error := by
              rw [Token.outcome_ofLexemes_run fun c tail htail => hstray ⟨c, tail, htail⟩, hread]
              rfl
            obtain ⟨hstart, hnumeral, rfl⟩ := (Operand.read_eq_error_iff hrun.wellFormed).mp hread
            refine ⟨_, hfault, firstOffence_of_offence hsplit hearlier hat ?_ ?_⟩
            · apply Offence.malformed hrun hstart hnumeral
              simp [upTo, Lexeme.isRun, spelling]
            · intro c rest hafter hc
              -- A character without a meaning behind the run would be a piece of its own.
              have hlater := (Lexeme.split_spelling_of_split (hsplit.trans (List.append_cons _ _ _))).2
              rw [hafter, Lexeme.split_stray_cons hc] at hlater
              exact absurd ⟨c, _, hlater.symm⟩ hstray

end first

/-! ## Operands that touch a parenthesis -/

theorem Contact.exists_split (hcontact : Contact text position near) :
    ∃ earlier left right later, split text = earlier ++ left :: right :: later ∧
      Lexeme.Meets left right ∧ (upTo earlier left).length = position := by
  cases hcontact with
  | @opening before characters after content hrun _ hposition =>
      refine ⟨split before, .run characters, .symbol (.parenthesis .opening), split after, ?_, ?_, ?_⟩
      · rw [hrun.split_eq, ← Lexeme.split_symbol_cons]
        rfl
      · simp [Lexeme.Meets, Lexeme.closes, Lexeme.opens, Lexeme.isRun]
      · simpa [upTo, Lexeme.spell_split, Lexeme.isRun, spelling] using hposition
  | @closing before characters after content hrun _ hposition =>
      refine ⟨split before, .symbol (.parenthesis .closing), .run characters, split after, ?_, ?_, ?_⟩
      · have hbefore := Lexeme.split_append_symbol (.parenthesis .closing) before []
        rw [hrun.split_eq, show [')'] = [(Symbol.parenthesis .closing).character] from rfl, hbefore]
        simp [Lexeme.split]
      · simp [Lexeme.Meets, Lexeme.closes, Lexeme.opens, Lexeme.isRun]
      · simpa [upTo, Lexeme.spell_split, Lexeme.isRun] using hposition

/-- In a text whose pieces can be read, no operand touches a parenthesis exactly if all pieces may
stand side by side. -/
theorem forall_not_contact_iff (hreads : ∃ tokens, List.Forall₂ Reads (split text) tokens) :
    (∀ position near, ¬ Contact text position near) ↔ (split text).IsChain Lexeme.Compatible := by
  rw [Lexeme.exists_reads_iff] at hreads
  rw [Lexeme.isChain_compatible_split_iff]
  constructor
  · intro hnone before characters after hrun
    obtain ⟨token, hread⟩ := hreads _ (MaximalRun.exists_iff_mem_split.mp ⟨_, _, hrun⟩)
    cases hread with
    | run hread =>
        have hdenoted := (Operand.read_eq_ok_iff hrun.wellFormed).mp hread
        constructor
        · intro hopening
          obtain ⟨rest, rfl⟩ := List.head?_eq_some_iff.mp hopening
          exact hnone _ _ (.opening hrun hdenoted rfl)
        · intro hclosing
          obtain ⟨rest, rfl⟩ := List.getLast?_eq_some_iff.mp hclosing
          exact hnone _ _ (.closing hrun hdenoted rfl)
  · intro hruns position near hcontact
    cases hcontact with
    | opening hrun _ _ => exact (hruns _ _ _ hrun).1 rfl
    | closing hrun _ _ => exact (hruns _ _ _ hrun).2 (by simp)

/-- Two pieces that meet are noticed at the contact of their operand and their parenthesis. -/
theorem contact_of_split {left right : Lexeme} {token token' : Token}
    (hsplit : split text = earlier ++ left :: right :: later) (hleft : Reads left token)
    (hright : Reads right token') (htouches : Token.Touches token token') :
    Contact text (upTo earlier left).length (token.text ++ token'.text) := by
  rcases htouches with ⟨hoperand, rfl⟩ | ⟨rfl, hoperand⟩
  · cases hright
    cases hleft with
    | symbol content => simp [Token.isSymbol] at hoperand
    | @run characters content hread =>
        have hrun := MaximalRun.of_split hsplit
        apply Contact.opening hrun ((Operand.read_eq_ok_iff hrun.wellFormed).mp hread)
        simp [upTo, Lexeme.isRun, spelling]
  · cases hleft
    cases hright with
    | symbol content => simp [Token.isSymbol] at hoperand
    | @run characters content hread =>
        have hrun := MaximalRun.of_split (hsplit.trans (List.append_cons _ _ _))
        rw [List.flatMap_append] at hrun
        apply Contact.closing hrun ((Operand.read_eq_ok_iff hrun.wellFormed).mp hread)
        simp [upTo, Lexeme.isRun]

/-- The first place among tokens where an operand and a parenthesis touch is that of the leftmost
parenthesis in the text that an operand touches. -/
theorem firstContact_of_touching? {tokens : List Token}
    (hreads : List.Forall₂ Reads (split text) tokens)
    (htouching : Token.touching? tokens = some near) : FirstContact text near := by
  obtain ⟨before, token, token', after, rfl, htouches, rfl, hchain⟩ :=
    Token.exists_of_touching?_eq_some htouching
  -- The pieces fall into parts in the same places as their tokens.
  have hearlier := List.forall₂_take_append _ _ _ hreads
  have hpieces := List.forall₂_drop_append _ _ _ hreads
  have hsplit := (List.take_append_drop before.length (split text)).symm
  generalize (split text).take before.length = earlier at hearlier hsplit
  obtain ⟨left, _, hleft, hpieces, hdrop⟩ := List.forall₂_cons_right_iff.mp hpieces
  obtain ⟨right, later, hright, -, rfl⟩ := List.forall₂_cons_right_iff.mp hpieces
  rw [hdrop] at hsplit
  refine ⟨_, contact_of_split hsplit hleft hright htouches, ?_⟩
  intro other near' hcontact
  obtain ⟨earlier', left', right', later', hsplit', hmeets, rfl⟩ := hcontact.exists_split
  apply length_upTo_le hsplit hsplit'
  by_contra hlt
  have hapart : (earlier ++ [left]).IsChain fun left right => ¬ left.Meets right := by
    refine Token.isChain_of_forall₂ (List.rel_append hearlier (.cons hleft .nil)).flip ?_ hchain
    intro token token' piece piece' hread hread' htouches hmeets
    exact htouches ((Token.touches_iff hread hread').mpr hmeets)
  obtain ⟨between, hbetween⟩ := prefix_of_length_lt
    (hsplit'.trans (List.append_cons _ _ _)) (hsplit.trans (List.append_cons _ _ _))
    (by simpa using Nat.lt_of_not_le hlt)
  rw [← hbetween, List.isChain_iff_forall_rel_of_append_cons_cons] at hapart
  exact @hapart left' right' earlier' between (by simp) hmeets

/-! ## The fault that is reported -/

namespace Token

/-- Where a piece cannot be read, the first offence is the fault. -/
theorem tokenize_eq_error_iff_firstOffence {text : String} {error : Error}
    (hreads : ¬ ∃ tokens, List.Forall₂ Reads (split text.toList) tokens) :
    tokenize text = .error error ↔ FirstOffence text.toList error := by
  have hpieces := hreads
  rw [Lexeme.exists_reads_iff] at hpieces
  obtain ⟨earlier, piece, later, hsplit, hearlier, hpiece⟩ :=
    exists_first_not (p := fun piece => ∃ token, Reads piece token) (by simpa using hpieces)
  obtain ⟨fault, hfault, hfirst⟩ := exists_firstOffence hsplit hearlier hpiece
  have htokenize : tokenize text = .error fault := by
    rw [tokenize_eq, hsplit, outcome_ofLexemes_append hearlier hfault]
    rfl
  rw [htokenize, Except.error.injEq]
  constructor
  · rintro rfl
    exact hfirst
  · exact hfirst.unique

/-- Where all pieces can be read, the first contact is the fault. -/
theorem tokenize_eq_error_iff_firstContact {text : String} {error : Error}
    (hreads : ∃ tokens, List.Forall₂ Reads (split text.toList) tokens) :
    tokenize text = .error error ↔
      ∃ near, FirstContact text.toList near ∧ error = .missingOperator near := by
  have hnone := forall_not_contact_iff hreads
  obtain ⟨tokens, hread⟩ := hreads
  rw [tokenize_eq, outcome_ofLexemes_eq_ok_iff.mpr hread, Except.bind]
  cases htouching : touching? tokens with
  | some near =>
      have hfirst := firstContact_of_touching? hread htouching
      rw [Except.error.injEq]
      constructor
      · rintro rfl
        exact ⟨near, hfirst, rfl⟩
      · rintro ⟨near', hfirst', rfl⟩
        rw [hfirst.unique hfirst']
  | none =>
      have hok := tokenize_eq_ok_iff_not_touches.mpr ⟨hread, touching?_eq_none_iff.mp htouching⟩
      refine iff_of_false (by simp) ?_
      rintro ⟨near, ⟨position, hcontact, -⟩, -⟩
      exact hnone.mpr (tokenize_eq_ok_iff.mp hok).2 _ _ hcontact

/-- A text that has no tokens fails at its first offence, or at its first contact if there is no
offence. -/
theorem tokenize_eq_error_iff_first {text : String} {error : Error} :
    tokenize text = .error error ↔
      FirstOffence text.toList error ∨
      (∀ position fault, ¬ Offence text.toList position fault) ∧
        ∃ near, FirstContact text.toList near ∧ error = .missingOperator near := by
  rw [forall_not_offence_iff]
  by_cases hreads : ∃ tokens, List.Forall₂ Reads (split text.toList) tokens
  · have hnot : ¬ FirstOffence text.toList error := by
      rintro ⟨position, hoffence, -⟩
      exact forall_not_offence_iff.mpr hreads _ _ hoffence
    simp only [tokenize_eq_error_iff_firstContact hreads, hnot, hreads, false_or, true_and]
  · simp only [tokenize_eq_error_iff_firstOffence hreads, hreads, false_and, or_false]

end Token

/-- Which error a compilation fails with. It is that of the first offence, if there is any. If there
is none, it is about the first contact of an operand and a parenthesis, if there is any. If there is
neither, it is about a parenthesis without a partner: an opening one is missing if some beginning of
the text has more closing parentheses than opening ones, and else a closing one is missing if the
whole text has more opening parentheses. -/
theorem Program.ofText_eq_error_iff_first (text : String) (error : Error) :
    ofText text = .error error ↔
      FirstOffence text.toList error ∨
      (∀ position fault, ¬ Offence text.toList position fault) ∧
        ((∃ near, FirstContact text.toList near ∧ error = .missingOperator near) ∨
          (∀ position near, ¬ Contact text.toList position near) ∧
            (Overcloses 0 text.toList ∧ error = .unmatchedParenthesis .opening ∨
              ¬ Overcloses 0 text.toList ∧ text.toList.count ')' < text.toList.count '(' ∧
                error = .unmatchedParenthesis .closing)) := by
  have htokens : (∃ tokens, Token.tokenize text = .ok tokens) ↔
      (∀ position fault, ¬ Offence text.toList position fault) ∧
        ∀ position near, ¬ Contact text.toList position near := by
    simp only [Token.tokenize_eq_ok_iff, exists_and_right, forall_not_offence_iff]
    exact and_congr_right fun hreads => (forall_not_contact_iff hreads).symm
  rw [ofText_eq, Except.bind_eq_error_iff, Token.tokenize_eq_error_iff_first, and_or_left, or_assoc]
  refine or_congr_right (or_congr_right ?_)
  rw [← and_assoc, ← htokens]
  constructor
  · rintro ⟨tokens, hok, herror⟩
    have hreading := Token.reading_iff.mpr (Token.tokenize_eq_ok_iff.mp hok).1
    exact ⟨⟨tokens, hok⟩, (ofTokens_eq_error_iff hreading).mp herror⟩
  · rintro ⟨⟨tokens, hok⟩, herror⟩
    have hreading := Token.reading_iff.mpr (Token.tokenize_eq_ok_iff.mp hok).1
    exact ⟨tokens, hok, (ofTokens_eq_error_iff hreading).mpr herror⟩

-- A number gives way to a character right behind it, and to no other.
example : Program.ofText "1.2.3$" = .error (.invalidCharacter "$") := by decide +kernel

example : Program.ofText ")1.2.3+$" = .error (.malformedNumber "1.2.3") := by decide +kernel

end Formula
