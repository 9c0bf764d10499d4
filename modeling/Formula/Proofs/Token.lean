import Formula.Proofs.Lexeme
import Formula.Proofs.Numeral
import Formula.Proofs.Outcome
import Formula.Token.Scan
import Mathlib.Data.List.Forall2

/-!
# Tokens and the pieces they stand for

A text has tokens exactly if each of its pieces can be read by itself and no operand touches a
parenthesis from outside. What is reported on the way plays no part in it.
-/

namespace Formula

/-- A piece is read as a token. Nothing is read from a stray character. -/
inductive Lexeme.Reads : Lexeme → Token → Prop where
  | run {characters : List Char} {content : Operand}
      (hread : Operand.read characters = .ok content) : Reads (.run characters) (.operand content)
  | symbol (content : Symbol) : Reads (.symbol content) (.symbol content)

/-- A name is read from its own characters, if they do not begin like a number. -/
theorem Operand.read_eq_name_iff {characters : List Char} {name : String} :
    read characters = .ok (.name name) ↔
      characters = name.toList ∧ name.toList.head?.any Alphabet.startsNumber = false := by
  constructor
  · intro hread
    unfold read at hread
    split at hread
    next => split at hread <;> cases hread
    next hstart =>
      obtain rfl := Operand.name.inj (Except.ok.inj hread)
      rw [String.toList_ofList]
      exact ⟨rfl, Bool.eq_false_iff.mpr hstart⟩
  · rintro ⟨rfl, hstart⟩
    rw [read, if_neg (Bool.eq_false_iff.mp hstart), String.ofList_toList]

namespace Token

open Lexeme (Reads)

/-- An operand stands before an opening parenthesis, or behind a closing one. -/
def Touches (left right : Token) : Prop :=
  (left.isSymbol = false ∧ right = .symbol (.parenthesis .opening)) ∨
    (left = .symbol (.parenthesis .closing) ∧ right.isSymbol = false)

/-- Neighbours stay related when each element of a row is replaced by its partner. -/
theorem isChain_of_forall₂ {α β : Type} {partner : α → β → Prop} {related : α → α → Prop}
    {related' : β → β → Prop} {xs : List α} {ys : List β} (hpartners : List.Forall₂ partner xs ys)
    (hrelated : ∀ x x' y y', partner x y → partner x' y' → related x x' → related' y y')
    (hchain : xs.IsChain related) : ys.IsChain related' := by
  induction hpartners with
  | nil => exact List.isChain_nil
  | cons hfirst hrest ih =>
      have hys := ih hchain.of_cons
      cases hrest with
      | nil => exact List.isChain_singleton _
      | cons hsecond hrest =>
          exact List.isChain_cons_cons.mpr ⟨hrelated _ _ _ _ hfirst hsecond hchain.rel, hys⟩

/-! ## Reading pieces -/

theorem outcome_ofLexemes_symbol (content : Symbol) (rest : List Lexeme) :
    (ofLexemes (.symbol content :: rest)).outcome =
      (ofLexemes rest).outcome.map (.symbol content :: ·) := rfl

/-- A run is read before what follows it, unless a stray character follows. -/
theorem outcome_ofLexemes_run {characters : List Char} {rest : List Lexeme}
    (hrest : ∀ c tail, rest = .stray c :: tail → False) :
    (ofLexemes (.run characters :: rest)).outcome =
      (Operand.read characters).bind fun content =>
        (ofLexemes rest).outcome.map (.operand content :: ·) := by
  rw [ofLexemes]
  · rw [Traced.outcome_bind]
    cases Operand.read characters <;> rfl
  · exact hrest

/-- Pieces have tokens exactly if each of them is read as its token. -/
theorem outcome_ofLexemes_eq_ok_iff {pieces : List Lexeme} {tokens : List Token} :
    (ofLexemes pieces).outcome = .ok tokens ↔ List.Forall₂ Reads pieces tokens := by
  induction pieces generalizing tokens with
  | nil =>
      rw [List.forall₂_nil_left_iff]
      exact ⟨fun h => (Except.ok.inj h).symm, fun h => h ▸ rfl⟩
  | cons piece rest ih =>
      have hmap (token : Token) : (ofLexemes rest).outcome.map (token :: ·) = .ok tokens ↔
          ∃ others, List.Forall₂ Reads rest others ∧ token :: others = tokens := by
        simp only [Except.map_eq_ok_iff, ih]
      cases piece with
      | stray c =>
          constructor
          · intro h
            cases h
          · intro hreads
            cases hreads with
            | cons hread => cases hread
      | symbol content =>
          rw [outcome_ofLexemes_symbol, hmap]
          constructor
          · intro hothers
            obtain ⟨others, hothers, rfl⟩ := hothers
            exact .cons (.symbol content) hothers
          · intro hreads
            cases hreads with
            | cons hread hothers =>
                cases hread
                exact ⟨_, hothers, rfl⟩
      | run characters =>
          by_cases hstray : ∃ c tail, rest = .stray c :: tail
          · -- The run is not read, and neither is the character that it touches.
            obtain ⟨c, tail, rfl⟩ := hstray
            constructor
            · intro h
              cases h
            · intro hreads
              cases hreads with
              | cons _ hothers =>
                  cases hothers with
                  | cons hread => cases hread
          · rw [outcome_ofLexemes_run fun c tail htail => hstray ⟨c, tail, htail⟩,
              Except.bind_eq_ok_iff]
            simp only [hmap]
            constructor
            · intro hread
              obtain ⟨content, hread, others, hothers, rfl⟩ := hread
              exact .cons (.run hread) hothers
            · intro hreads
              cases hreads with
              | cons hread hothers =>
                  cases hread with
                  | run hread => exact ⟨_, hread, _, hothers, rfl⟩

/-- The operands among tokens are what the runs among their pieces are read as. -/
theorem operand_mem_iff {pieces : List Lexeme} {tokens : List Token}
    (hreads : List.Forall₂ Reads pieces tokens) {content : Operand} :
    .operand content ∈ tokens ↔
      ∃ characters, .run characters ∈ pieces ∧ Operand.read characters = .ok content := by
  induction hreads with
  | nil => simp
  | cons hread _ ih =>
      rw [List.mem_cons, ih]
      cases hread with
      | symbol symbol => simp
      | @run characters found hread =>
          constructor
          · rintro (heq | ⟨others, hmem, hothers⟩)
            · obtain rfl := Token.operand.inj heq
              exact ⟨characters, List.mem_cons_self, hread⟩
            · exact ⟨others, List.mem_cons_of_mem _ hmem, hothers⟩
          · rintro ⟨others, hmem, hothers⟩
            rcases List.mem_cons.mp hmem with heq | hrest
            · obtain rfl := Lexeme.run.inj heq
              exact .inl (congrArg _ (Except.ok.inj (hothers.symm.trans hread)))
            · exact .inr ⟨others, hrest, hothers⟩

/-- The names among tokens are the runs among their pieces that do not begin like a number. -/
theorem name_mem_iff {pieces : List Lexeme} {tokens : List Token}
    (hreads : List.Forall₂ Reads pieces tokens) {name : String} :
    .operand (.name name) ∈ tokens ↔
      .run name.toList ∈ pieces ∧ name.toList.head?.any Alphabet.startsNumber = false := by
  rw [operand_mem_iff hreads]
  simp only [Operand.read_eq_name_iff]
  constructor
  · rintro ⟨_, hmem, rfl, hstart⟩
    exact ⟨hmem, hstart⟩
  · rintro ⟨hmem, hstart⟩
    exact ⟨_, hmem, rfl, hstart⟩

/-! ## Operands and parentheses that touch -/

theorem not_touches_head {token : Token} {rest : List Token}
    (hopening : ∀ content tail, token = .operand content →
      rest = .symbol (.parenthesis .opening) :: tail → False)
    (hclosing : ∀ content tail, token = .symbol (.parenthesis .closing) →
      rest = .operand content :: tail → False) :
    ∀ next ∈ rest.head?, ¬ Touches token next := by
  intro next hnext htouches
  obtain ⟨tail, rfl⟩ := List.head?_eq_some_iff.mp hnext
  rcases htouches with ⟨hoperand, rfl⟩ | ⟨rfl, hoperand⟩
  · cases token with
    | operand content => exact hopening content tail rfl rfl
    | symbol content => simp [isSymbol] at hoperand
  · cases next with
    | operand content => exact hclosing content tail rfl rfl
    | symbol content => simp [isSymbol] at hoperand

theorem touching?_eq_none_iff {tokens : List Token} :
    touching? tokens = none ↔ tokens.IsChain fun left right => ¬ Touches left right := by
  fun_induction touching? tokens with
  | case1 content rest =>
      simp [List.isChain_cons_cons, Touches, isSymbol]
  | case2 content rest =>
      simp [List.isChain_cons_cons, Touches, isSymbol]
  | case3 token rest hopening hclosing ih =>
      rw [ih, List.isChain_cons]
      -- The first two tokens do not touch, as the other cases have come before this one.
      exact ⟨fun hrest => ⟨not_touches_head hopening hclosing, hrest⟩, fun h => h.2⟩
  | case4 => simp

/-- Where an operand and a parenthesis touch first, no others touch before. -/
theorem exists_of_touching?_eq_some {tokens : List Token} {near : String}
    (htouching : touching? tokens = some near) :
    ∃ before left right after, tokens = before ++ left :: right :: after ∧ Touches left right ∧
      near = left.text ++ right.text ∧
      (before ++ [left]).IsChain fun left right => ¬ Touches left right := by
  fun_induction touching? tokens with
  | case1 content rest =>
      obtain rfl := Option.some.inj htouching
      exact ⟨[], _, _, rest, rfl, .inl ⟨rfl, rfl⟩, rfl, List.isChain_singleton _⟩
  | case2 content rest =>
      obtain rfl := Option.some.inj htouching
      exact ⟨[], _, _, rest, rfl, .inr ⟨rfl, rfl⟩, rfl, List.isChain_singleton _⟩
  | case3 token rest hopening hclosing ih =>
      obtain ⟨before, left, right, after, rfl, htouches, rfl, hchain⟩ := ih htouching
      refine ⟨token :: before, left, right, after, rfl, htouches, rfl, ?_⟩
      refine List.isChain_cons.mpr ⟨fun next hnext => ?_, hchain⟩
      apply not_touches_head hopening hclosing
      cases before <;> simpa using hnext
  | case4 => cases htouching

/-- Tokens touch where one of two pieces that meet is an operand and the other one a group. -/
theorem touches_iff {piece piece' : Lexeme} {token token' : Token} (hread : Reads piece token)
    (hread' : Reads piece' token') :
    Touches token token' ↔ piece.Meets piece' := by
  cases hread <;> cases hread' <;>
    simp [Touches, Lexeme.Meets, Lexeme.closes, Lexeme.opens, Lexeme.isRun, isSymbol]

theorem tokenize_eq (text : String) :
    tokenize text = (ofLexemes (Lexeme.split text.toList)).outcome.bind fun tokens =>
      match touching? tokens with
      | some near => .error (.missingOperator near)
      | none => .ok tokens := by
  unfold tokenize scan
  rw [Traced.outcome_bind]
  refine congrArg (Except.bind _) (funext fun tokens => ?_)
  cases touching? tokens <;> rfl

/-- A text has tokens exactly if they are what its pieces are read as and none of them touch. -/
theorem tokenize_eq_ok_iff_not_touches {text : String} {tokens : List Token} :
    tokenize text = .ok tokens ↔
      List.Forall₂ Reads (Lexeme.split text.toList) tokens ∧
        tokens.IsChain fun left right => ¬ Touches left right := by
  rw [tokenize_eq, ← touching?_eq_none_iff, ← outcome_ofLexemes_eq_ok_iff]
  refine Except.bind_eq_ok_iff.trans ?_
  constructor
  · intro hfound
    obtain ⟨found, hread, hlater⟩ := hfound
    split at hlater
    next => cases hlater
    next hnone =>
      obtain rfl := Except.ok.inj hlater
      exact ⟨hread, hnone⟩
  · intro hread
    obtain ⟨hread, hnone⟩ := hread
    refine ⟨tokens, hread, ?_⟩
    rw [hnone]

/-- A text has no tokens if a piece of it cannot be read, or else if an operand touches a
parenthesis. -/
theorem tokenize_eq_error_iff {text : String} {error : Error} :
    tokenize text = .error error ↔
      (ofLexemes (Lexeme.split text.toList)).outcome = .error error ∨
      ∃ tokens near, List.Forall₂ Reads (Lexeme.split text.toList) tokens ∧
        touching? tokens = some near ∧ error = .missingOperator near := by
  rw [tokenize_eq, Except.bind_eq_error_iff]
  refine or_congr_right (exists_congr fun tokens => ?_)
  rw [outcome_ofLexemes_eq_ok_iff, exists_and_left]
  refine and_congr_right fun _ => ?_
  cases touching? tokens <;> simp [eq_comm]

/-- A text has tokens exactly if they are what its pieces are read as and all of these may stand
side by side. -/
theorem tokenize_eq_ok_iff {text : String} {tokens : List Token} :
    tokenize text = .ok tokens ↔
      List.Forall₂ Reads (Lexeme.split text.toList) tokens ∧
        (Lexeme.split text.toList).IsChain Lexeme.Compatible := by
  refine tokenize_eq_ok_iff_not_touches.trans (and_congr_right fun hreads => ⟨?_, ?_⟩)
  · intro htouches
    have hapart := Lexeme.isChain_split text.toList
    have hsame : (Lexeme.split text.toList).IsChain fun left right => ¬ left.Meets right :=
      isChain_of_forall₂ hreads.flip (fun _ _ _ _ hread hread' htouch hmeet =>
        htouch ((touches_iff hread hread').mpr hmeet)) htouches
    rw [List.isChain_iff_forall_rel_of_append_cons_cons] at hapart hsame ⊢
    intro left right before after hsplit hcloses hopens
    have hboth : ¬ (left.isRun = true ∧ right.isRun = true) := hapart hsplit
    have heq : left.isRun = right.isRun :=
      by_contra fun hne => hsame hsplit ⟨hcloses, hopens, hne⟩
    rw [← heq, and_self] at hboth
    rw [← heq, and_self]
    exact Bool.eq_false_iff.mpr hboth
  · intro hcompatible
    refine isChain_of_forall₂ hreads (fun _ _ _ _ hread hread' hmay htouches => ?_) hcompatible
    obtain ⟨hcloses, hopens, hne⟩ := (touches_iff hread hread').mp htouches
    obtain ⟨hleft, hright⟩ := hmay hcloses hopens
    exact hne (hleft.trans hright.symm)

/-- A text that begins with a character of neither kind is at fault there. -/
theorem tokenize_eq_error_of_stray {text : String} {c : Char} (hhead : text.toList.head? = some c)
    (hstray : (Lexeme.stray c).WellFormed) :
    tokenize text = .error (.invalidCharacter (Alphabet.describe c)) := by
  obtain ⟨rest, hrest⟩ := List.head?_eq_some_iff.mp hhead
  unfold tokenize scan
  rw [Traced.outcome_bind, hrest, Lexeme.split_stray_cons hstray]
  rfl

end Token

end Formula
