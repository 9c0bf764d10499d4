import Formula.Proofs.Engine
import Formula.Proofs.Lexicon
import Formula.Proofs.Placement

/-!
# What a compilation reports

While a text is compiled, each operand is reported before it is read. Which operands are reached can
be said about the text: the longest rows of operand characters up to the first one that is no
numeral although it begins like one, as far as only characters of formulas stand before them and
they do not touch another one behind. Faults that are found later on, when tokens are compared with
each other, leave no trace in the reports.
-/

namespace Formula

open Lexeme (split spelling Reads)

/-- A row of operand characters that is reached when a text is read. -/
structure ReachedRun (text before characters after : List Char) : Prop where
  maximal : MaximalRun text before characters after
  before_valid : ∀ c ∈ before,
    Alphabet.isOperand c = true ∨ c ∈ ['+', '-', '*', '/', '^', '(', ')']
  after_symbol : ∀ c ∈ after.head?, c ∈ ['+', '-', '*', '/', '^', '(', ')']
  /-- No row before it is malformed. -/
  earlier_numeral : ∀ before' characters' after', MaximalRun text before' characters' after' →
    before'.length < before.length → characters'.head?.any Alphabet.startsNumber = true →
    ∃ numeral : Numeral, numeral.characters = characters'

/-- Events that report the operands of a text that are reached, each once and in their order. -/
def ReportsOperands (text : List Char) (events : List Event) : Prop :=
  ∃ runs : List (List Char × List Char × List Char),
    events = runs.map (fun run => .operand (.ofList run.2.1)) ∧
    runs.Pairwise (fun run later => run.1.length < later.1.length) ∧
    ∀ before characters after,
      (before, characters, after) ∈ runs ↔ ReachedRun text before characters after

/-! ## Pieces that are reached -/

namespace Lexeme

/-- A run among pieces that is reached: all pieces before it can be read, and it touches no stray
character. -/
structure Reached (pieces earlier : List Lexeme) (characters : List Char) (later : List Lexeme) :
    Prop where
  pieces_eq : pieces = earlier ++ .run characters :: later
  earlier_reads : ∀ piece ∈ earlier, ∃ token, Reads piece token
  later_begins : ∀ c tail, later ≠ .stray c :: tail

variable {piece : Lexeme} {pieces rest earlier later : List Lexeme} {characters : List Char}

theorem not_reached_nil : ¬ Reached [] earlier characters later := by
  rintro ⟨hpieces, -, -⟩
  simp at hpieces

theorem reached_cons_iff :
    Reached (piece :: rest) earlier characters later ↔
      (earlier = [] ∧ piece = .run characters ∧ later = rest ∧ ∀ c tail, rest ≠ .stray c :: tail) ∨
        ∃ between, earlier = piece :: between ∧ (∃ token, Reads piece token) ∧
          Reached rest between characters later := by
  constructor
  · rintro ⟨hpieces, hearlier, hlater⟩
    cases earlier with
    | nil =>
        obtain ⟨rfl, rfl⟩ := List.cons.inj hpieces
        exact .inl ⟨rfl, rfl, rfl, hlater⟩
    | cons first between =>
        obtain ⟨rfl, rfl⟩ := List.cons.inj hpieces
        rw [List.forall_mem_cons] at hearlier
        exact .inr ⟨between, rfl, hearlier.1, rfl, hearlier.2, hlater⟩
  · rintro (⟨rfl, rfl, rfl, hlater⟩ | ⟨between, rfl, hread, rfl, hearlier, hlater⟩)
    · exact ⟨rfl, by simp, hlater⟩
    · exact ⟨rfl, List.forall_mem_cons.mpr ⟨hread, hearlier⟩, hlater⟩

theorem not_reached_stray {c : Char} : ¬ Reached (.stray c :: rest) earlier characters later := by
  rw [reached_cons_iff]
  rintro (⟨-, hpiece, -⟩ | ⟨between, -, ⟨token, hread⟩, -⟩)
  · cases hpiece
  · cases hread

theorem not_reached_touching {c : Char} {run : List Char} :
    ¬ Reached (.run run :: .stray c :: rest) earlier characters later := by
  rw [reached_cons_iff]
  rintro (⟨-, -, -, hrest⟩ | ⟨between, -, -, hreached⟩)
  · exact hrest c rest rfl
  · exact not_reached_stray hreached

/-- A place among pieces, seen from a piece that stands before all of them. -/
def push (piece : Lexeme) (place : List Lexeme × List Char × List Lexeme) :
    List Lexeme × List Char × List Lexeme :=
  (piece :: place.1, place.2)

/-- Places are those of the runs that are reached, in their order. -/
structure ListsReached (pieces : List Lexeme)
    (places : List (List Lexeme × List Char × List Lexeme)) : Prop where
  inOrder : places.Pairwise fun place later =>
    (place.1.flatMap spelling).length < (later.1.flatMap spelling).length
  mem_iff : ∀ earlier characters later,
    (earlier, characters, later) ∈ places ↔ Reached pieces earlier characters later

namespace ListsReached

variable {places : List (List Lexeme × List Char × List Lexeme)}

theorem nil (hnone : ∀ earlier characters later, ¬ Reached pieces earlier characters later) :
    ListsReached pieces [] :=
  ⟨.nil, fun earlier characters later => by simp [hnone earlier characters later]⟩

theorem pairwise_push (hplaces : ListsReached rest places) (piece : Lexeme) :
    (places.map (push piece)).Pairwise fun place later =>
      (place.1.flatMap spelling).length < (later.1.flatMap spelling).length := by
  refine List.pairwise_map.mpr (hplaces.inOrder.imp fun hlt => ?_)
  simpa [push] using hlt

theorem mem_push_iff (hplaces : ListsReached rest places) :
    (earlier, characters, later) ∈ places.map (push piece) ↔
      ∃ between, earlier = piece :: between ∧ Reached rest between characters later := by
  simp only [List.mem_map, Prod.exists, hplaces.mem_iff, push, Prod.mk.injEq]
  constructor
  · rintro ⟨between, characters, later, hreached, rfl, rfl, rfl⟩
    exact ⟨between, rfl, hreached⟩
  · rintro ⟨between, rfl, hreached⟩
    exact ⟨between, characters, later, hreached, rfl, rfl, rfl⟩

theorem symbol (hplaces : ListsReached rest places) (content : Symbol) :
    ListsReached (.symbol content :: rest) (places.map (push (.symbol content))) := by
  refine ⟨hplaces.pairwise_push _, fun earlier characters later => ?_⟩
  have hread : ∃ token, Reads (.symbol content) token := ⟨_, .symbol content⟩
  rw [hplaces.mem_push_iff, reached_cons_iff]
  simp [hread]

theorem run (hplaces : ListsReached rest places) {content : Operand}
    (hwell : (Lexeme.run characters).WellFormed) (hrest : ∀ c tail, rest ≠ .stray c :: tail)
    (hread : Operand.read characters = .ok content) :
    ListsReached (.run characters :: rest)
      (([], characters, rest) :: places.map (push (.run characters))) := by
  refine ⟨List.pairwise_cons.mpr ⟨?_, hplaces.pairwise_push _⟩, fun earlier others later => ?_⟩
  · intro place hplace
    obtain ⟨between, -, rfl⟩ := List.mem_map.mp hplace
    have hpos := List.length_pos_iff.mpr hwell.1
    simp [Lexeme.push, spelling]
    omega
  · have hreads : ∃ token, Reads (.run characters) token := ⟨_, .run hread⟩
    rw [List.mem_cons, hplaces.mem_push_iff, reached_cons_iff]
    simp [hreads, hrest, eq_comm]

/-- Nothing is reached behind a run that cannot be read. -/
theorem malformed {error : Error} (hrest : ∀ c tail, rest ≠ .stray c :: tail)
    (hread : Operand.read characters = .error error) :
    ListsReached (.run characters :: rest) [([], characters, rest)] := by
  refine ⟨List.pairwise_singleton _ _, fun earlier others later => ?_⟩
  have hreads : ¬ ∃ token, Reads (.run characters) token := by
    rintro ⟨_, ⟨hfound⟩⟩
    cases hread.symm.trans hfound
  rw [List.mem_singleton, reached_cons_iff]
  simp [hreads, hrest, eq_comm]

end ListsReached

variable {text before after : List Char}

/-- What is reached in a text is reached among its pieces. -/
theorem reached_of_reachedRun (hreached : ReachedRun text before characters after) :
    Reached (split text) (split before) characters (split after) := by
  obtain ⟨hrun, hvalid, hsymbol, hnumeral⟩ := hreached
  refine ⟨hrun.split_eq, ?_, ?_⟩
  · refine exists_reads_iff.mp (exists_reads_split_iff.mpr ⟨hvalid, ?_⟩)
    intro before' characters' after' hrun'
    -- A run of what stands before is one of the whole text.
    have hsplit := hrun.split_eq
    rw [hrun'.split_eq, List.append_assoc] at hsplit
    have hwhole := MaximalRun.of_split hsplit
    rw [spell_split] at hwhole
    refine hnumeral _ _ _ hwhole ?_
    have hpos := List.length_pos_iff.mpr hrun'.ne_nil
    simp [hrun'.text_eq]
    omega
  · intro c tail htail
    have hstray : (stray c).WellFormed := @wellFormed_of_mem_split after _ (by simp [htail])
    have hhead : after.head? = some c := by
      rw [← spell_split after, htail]
      rfl
    exact Symbol.ofChar?_eq_none_iff.mp hstray.2 (hsymbol c hhead)

theorem Reached.reachedRun (hreached : Reached (split text) earlier characters later) :
    ReachedRun text (earlier.flatMap spelling) characters (later.flatMap spelling) := by
  obtain ⟨hsplit, hearlier, hlater⟩ := hreached
  have hrun := MaximalRun.of_split hsplit
  have hreads := exists_reads_iff.mpr hearlier
  rw [← (split_spelling_of_split hsplit).1] at hreads
  refine ⟨hrun, (exists_reads_split_iff.mp hreads).1, ?_, ?_⟩
  · intro c hc
    by_contra hnot
    have hstray : (stray c).WellFormed :=
      ⟨hrun.after_begins c hc, Symbol.ofChar?_eq_none_iff.mpr hnot⟩
    obtain ⟨tail, htail⟩ := List.head?_eq_some_iff.mp hc
    rw [List.append_cons] at hsplit
    have hsame := (split_spelling_of_split hsplit).2
    rw [htail, split_stray_cons hstray] at hsame
    exact hlater c _ hsame.symm
  · intro before' characters' after' hrun' hlt hstart
    rcases hrun'.cases_of_split hsplit with ⟨hmem, -⟩ | ⟨-, rfl, -⟩ | ⟨between, rfl⟩
    · obtain ⟨token, hread⟩ := hearlier _ hmem
      cases hread with
      | run hread =>
          exact (Operand.exists_denoted_iff hrun'.wellFormed).mp
            ⟨_, (Operand.read_eq_ok_iff hrun'.wellFormed).mp hread⟩ hstart
    · exact absurd hlt (Nat.lt_irrefl _)
    · simp at hlt

end Lexeme

/-! ## The events of a scan -/

namespace Token

theorem events_ofLexemes_symbol (content : Symbol) (rest : List Lexeme) :
    (ofLexemes (.symbol content :: rest)).events = (ofLexemes rest).events := rfl

/-- A run is reported before it is read, and what follows it is reached if it can be read. -/
theorem events_ofLexemes_run {characters : List Char} {rest : List Lexeme}
    (hrest : ∀ c tail, rest ≠ .stray c :: tail) :
    (ofLexemes (.run characters :: rest)).events =
      .operand (.ofList characters) ::
        match Operand.read characters with
        | .ok _ => (ofLexemes rest).events
        | .error _ => [] := by
  rw [ofLexemes]
  · cases Operand.read characters <;> rfl
  · exact hrest

theorem events_ofLexemes_stray (c : Char) (rest : List Lexeme) :
    (ofLexemes (.stray c :: rest)).events = [] := by
  rw [ofLexemes]
  rfl

/-- The events of pieces report the runs that are reached, in their order. -/
theorem exists_places_of_ofLexemes {pieces : List Lexeme}
    (hwell : ∀ piece ∈ pieces, piece.WellFormed) :
    ∃ places, Lexeme.ListsReached pieces places ∧
      (ofLexemes pieces).events = places.map fun place => .operand (.ofList place.2.1) := by
  induction pieces with
  | nil => exact ⟨[], .nil fun _ _ _ => Lexeme.not_reached_nil, rfl⟩
  | cons piece rest ih =>
      rw [List.forall_mem_cons] at hwell
      obtain ⟨places, hplaces, hevents⟩ := ih hwell.2
      cases piece with
      | stray c => exact ⟨[], .nil fun _ _ _ => Lexeme.not_reached_stray, events_ofLexemes_stray c rest⟩
      | symbol content =>
          refine ⟨_, hplaces.symbol content, ?_⟩
          rw [events_ofLexemes_symbol, hevents, List.map_map]
          rfl
      | run characters =>
          by_cases hstray : ∃ c tail, rest = .stray c :: tail
          · obtain ⟨c, tail, rfl⟩ := hstray
            exact ⟨[], .nil fun _ _ _ => Lexeme.not_reached_touching, rfl⟩
          · have hrest : ∀ c tail, rest ≠ .stray c :: tail := fun c tail htail =>
              hstray ⟨c, tail, htail⟩
            rw [events_ofLexemes_run hrest]
            cases hread : Operand.read characters with
            | error error => exact ⟨_, .malformed hrest hread, rfl⟩
            | ok content =>
                refine ⟨_, hplaces.run hwell.1 hrest hread, ?_⟩
                dsimp only
                rw [hevents, List.map_cons, List.map_map]
                rfl

end Token

/-! ## Compilations -/

/-- Only what is done first is reported if the rest is done without a report. -/
theorem Traced.events_bind {α β : Type} {first : Traced α} {next : α → Traced β}
    (hsilent : ∀ value, (next value).events = []) : (first >>= next).events = first.events := by
  change (first.andThen next).events = first.events
  unfold andThen
  cases first.outcome with
  | error error => rfl
  | ok value => simp [hsilent]

namespace Program

theorem events_compile (source : String) :
    (compile source).events = (Token.ofLexemes (split source.toList)).events := by
  have hscan : (Token.scan source).events = (Token.ofLexemes (split source.toList)).events := by
    refine Traced.events_bind fun tokens => ?_
    cases Token.touching? tokens <;> rfl
  rw [← hscan]
  exact Traced.events_bind fun tokens => rfl

/-- A compilation reports the operands of its text that are reached, whether it succeeds or not. -/
theorem reportsOperands_compile (source : String) :
    ReportsOperands source.toList (compile source).events := by
  obtain ⟨places, ⟨hordered, hmem⟩, hevents⟩ :=
    Token.exists_places_of_ofLexemes (@Lexeme.wellFormed_of_mem_split source.toList)
  refine ⟨places.map fun place => (place.1.flatMap spelling, place.2.1, place.2.2.flatMap spelling),
    ?_, ?_, fun before characters after => ?_⟩
  · rw [events_compile, hevents, List.map_map]
    rfl
  · exact List.pairwise_map.mpr hordered
  · simp only [List.mem_map, Prod.exists, Prod.mk.injEq, hmem]
    constructor
    · rintro ⟨earlier, _, later, hreached, rfl, rfl, rfl⟩
      exact hreached.reachedRun
    · intro hreached
      exact ⟨_, _, _, Lexeme.reached_of_reachedRun hreached, Lexeme.spell_split _, rfl,
        Lexeme.spell_split _⟩

-- The second operand touches a character that no formula holds.
example : (compile "a+1.2.3$").events = [.operand "a"] := by decide +kernel

/-- The steps of a program are as many as the tokens of its text that are no parentheses. -/
theorem length_of_ofText {source : String} {program : Program}
    (hprogram : ofText source = .ok program) :
    ∃ tokens, Token.tokenize source = .ok tokens ∧
      program.length = tokens.countP fun token => !token.isParenthesis := by
  rw [ofText_eq] at hprogram
  obtain ⟨tokens, htokens, hconverted⟩ := Except.bind_eq_ok_iff.mp hprogram
  refine ⟨tokens, htokens, ?_⟩
  have hstep (token : Token) : token.instruction?.isSome = !token.isParenthesis := by
    rcases token with _ | _ | _ <;> rfl
  calc program.length = (tokens.filterMap Token.instruction?).length :=
        (perm_of_ofTokens hconverted).length_eq
    _ = tokens.countP fun token => token.instruction?.isSome :=
        List.length_filterMap_eq_countP
    _ = tokens.countP fun token => !token.isParenthesis := by simp only [hstep]

end Program

end Formula
