import Formula.Proofs.Conservation
import Formula.Proofs.Siding

/-!
# Where tokens go in a program

A conversion puts each token but the parentheses into the program once. To say which token of the
formula one of the program is, tokens are numbered by their places in the formula. Operands keep
their order, and an operator never gets in front of an operand that it has stood behind: whatever
the program holds before an operand has come before it in the formula.
-/

namespace Formula

namespace Token

def isParenthesis : Token → Bool
  | operand _ => false
  | symbol content => content.isParenthesis

/-- Tokens with their places in the row, counted from a number on. -/
def numbered (tokens : List Token) (first : Nat) : List (Token × Nat) :=
  (tokens.zipIdx first).filter fun entry => !entry.1.isParenthesis

/-- Two numbered tokens stand in an order that a program may have them in: an operand comes behind
nothing that it stood before. -/
def InOrder (earlier later : Token × Nat) : Prop :=
  later.1.isSymbol = false → earlier.2 < later.2

theorem numbered_cons (token : Token) (rest : List Token) (first : Nat) :
    numbered (token :: rest) first =
      (if token.isParenthesis then [] else [(token, first)]) ++ numbered rest (first + 1) := by
  cases hparenthesis : token.isParenthesis <;> simp [numbered, hparenthesis]

theorem isSymbol_of_mem {operators : List Operator} {entries : List (Token × Nat)}
    (hentries : entries.map Prod.fst = operators.map fun operator => .symbol (.operator operator)) :
    ∀ entry ∈ entries, entry.1.isSymbol = true := by
  intro entry hentry
  have hmem : entry.1 ∈ entries.map Prod.fst := List.mem_map_of_mem hentry
  rw [hentries] at hmem
  obtain ⟨operator, -, heq⟩ := List.mem_map.mp hmem
  rw [← heq]
  rfl

end Token

open Token (InOrder numbered)

namespace Yard

/-! ## States -/

/-- A state holds the tokens taken so far in their places: those of its program in an order that it
may have them in, and the operators that wait. -/
def Arranges (yard : Yard) (taken : List (Token × Nat)) : Prop :=
  ∃ placed pending : List (Token × Nat),
    placed.map Prod.fst = yard.emitted.reverse.map Instruction.token ∧
    (pending.map Prod.fst =
      (yard.waiting ++ yard.outer.flatten).map fun operator => .symbol (.operator operator)) ∧
    (placed ++ pending).Perm taken ∧ placed.Pairwise InOrder

variable {emitted : List Instruction} {due kept waiting : List Operator}
  {outer : List (List Operator)} {taken : List (Token × Nat)} {place : Nat}

theorem arranges_nil : Arranges {} [] :=
  ⟨[], [], rfl, rfl, .refl _, .nil⟩

/-- Operators that wait may go into the program at any time, as no operand is among them. -/
theorem Arranges.release (harranges : Arranges ⟨emitted, due ++ kept, outer⟩ taken) :
    Arranges ⟨release due emitted, kept, outer⟩ taken := by
  obtain ⟨placed, pending, hplaced, hpending, hperm, hordered⟩ := harranges
  dsimp only at hplaced hpending
  rw [List.append_assoc, List.map_append] at hpending
  obtain ⟨first, rest, rfl, hfirst, hrest⟩ := List.map_eq_append_iff.mp hpending
  refine ⟨placed ++ first, rest, ?_, hrest, by rwa [List.append_assoc], ?_⟩
  · simp [Yard.release, hplaced, hfirst, Instruction.token]
  · have hsymbols := Token.isSymbol_of_mem hfirst
    have hlate (earlier : Token × Nat) {later : Token × Nat} (hlater : later ∈ first) :
        InOrder earlier later := by
      intro hoperand
      simp [hsymbols later hlater] at hoperand
    refine List.pairwise_append.mpr ⟨hordered, ?_, fun earlier _ later hlater => hlate _ hlater⟩
    exact List.pairwise_of_forall_mem_list fun earlier _ later hlater => hlate _ hlater

theorem Arranges.wait (harranges : Arranges ⟨emitted, waiting, outer⟩ taken) (operator : Operator)
    (place : Nat) :
    Arranges ⟨emitted, operator :: waiting, outer⟩
      (taken ++ [(.symbol (.operator operator), place)]) := by
  obtain ⟨placed, pending, hplaced, hpending, hperm, hordered⟩ := harranges
  refine ⟨placed, (.symbol (.operator operator), place) :: pending, hplaced, ?_, ?_, hordered⟩
  · simpa using hpending
  · exact List.perm_middle.trans ((hperm.cons _).trans (List.perm_append_singleton _ _).symm)

/-- The latest operand stands behind all that has been taken. -/
theorem Arranges.emit (harranges : Arranges ⟨emitted, waiting, outer⟩ taken) (operand : Operand)
    (hplace : ∀ entry ∈ taken, entry.2 < place) :
    Arranges ⟨.push operand :: emitted, waiting, outer⟩ (taken ++ [(.operand operand, place)]) := by
  obtain ⟨placed, pending, hplaced, hpending, hperm, hordered⟩ := harranges
  refine ⟨placed ++ [(.operand operand, place)], pending, ?_, hpending, ?_, ?_⟩
  · simpa [Instruction.token] using hplaced
  · rw [List.append_assoc]
    exact List.perm_middle.trans ((hperm.cons _).trans (List.perm_append_singleton _ _).symm)
  · refine List.pairwise_append.mpr ⟨hordered, List.pairwise_singleton _ _, ?_⟩
    intro earlier hearlier later hlater _
    obtain rfl := List.mem_singleton.mp hlater
    exact hplace earlier (hperm.mem_iff.mp (List.mem_append_left _ hearlier))

/-- The operators that an operator puts into the program are the topmost of those that wait. -/
theorem exists_await_eq (yard : Yard) (operator : Operator) :
    ∃ due kept, yard.waiting = due ++ kept ∧
      yard.await operator = ⟨Yard.release due yard.emitted, operator :: kept, yard.outer⟩ := by
  unfold await
  split
  · exact ⟨[], yard.waiting, rfl, rfl⟩
  · exact ⟨_, _, List.takeWhile_append_dropWhile.symm, rfl⟩

theorem Arranges.step {yard next : Yard} {token : Token} (harranges : yard.Arranges taken)
    (hplace : ∀ entry ∈ taken, entry.2 < place) (hstep : yard.step token = .ok next) :
    next.Arranges (taken ++ if token.isParenthesis then [] else [(token, place)]) := by
  rcases token with operand | operator | _ | _
  · obtain rfl := Except.ok.inj hstep
    exact harranges.emit operand hplace
  · obtain rfl := Except.ok.inj hstep
    obtain ⟨due, kept, hwaiting, hawait⟩ := yard.exists_await_eq operator
    obtain ⟨emitted, waiting, outer⟩ := yard
    dsimp only at hwaiting
    subst hwaiting
    rw [hawait]
    exact harranges.release.wait operator place
  · obtain rfl := Except.ok.inj hstep
    exact (List.append_nil taken).symm ▸ harranges
  · obtain ⟨emitted, waiting, _ | ⟨around, outer⟩⟩ := yard
    · cases hstep
    · obtain rfl := Except.ok.inj hstep
      have hreleased : Arranges ⟨Yard.release waiting emitted, [], around :: outer⟩ taken :=
        Arranges.release ((List.append_nil waiting).symm ▸ harranges)
      exact (List.append_nil taken).symm ▸ hreleased

/-! ## Runs -/

theorem Arranges.run {yard last : Yard} {tokens : List Token} {first : Nat}
    (harranges : yard.Arranges taken) (hfirst : ∀ entry ∈ taken, entry.2 < first)
    (hrun : yard.run tokens = .ok last) :
    last.Arranges (taken ++ numbered tokens first) := by
  induction tokens generalizing yard taken first with
  | nil =>
      obtain rfl := Except.ok.inj hrun
      exact (List.append_nil taken).symm ▸ harranges
  | cons token rest ih =>
      obtain ⟨next, hstep, hrest⟩ := exists_of_run_cons hrun
      rw [Token.numbered_cons, ← List.append_assoc]
      refine ih (harranges.step hfirst hstep) ?_ hrest
      intro entry hentry
      rcases List.mem_append.mp hentry with htaken | hlast
      · exact Nat.lt_succ_of_lt (hfirst entry htaken)
      · split at hlast
        · cases hlast
        · obtain rfl := List.mem_singleton.mp hlast
          exact Nat.lt_succ_self first

end Yard

namespace Token

variable {tokens : List Token} {first : Nat}

theorem map_fst_numbered (tokens : List Token) (first : Nat) :
    (numbered tokens first).map Prod.fst = tokens.filter fun token => !token.isParenthesis := by
  calc (numbered tokens first).map Prod.fst
      = ((tokens.zipIdx first).map Prod.fst).filter fun token => !token.isParenthesis := by
        rw [List.filter_map]
        rfl
    _ = tokens.filter fun token => !token.isParenthesis := by rw [List.zipIdx_map_fst]

theorem pairwise_numbered (tokens : List Token) (first : Nat) :
    (numbered tokens first).Pairwise fun earlier later => earlier.2 < later.2 := by
  have hplaces : ((tokens.zipIdx first).map Prod.snd).Pairwise (· < ·) := by
    rw [List.zipIdx_map_snd]
    exact List.pairwise_lt_range' 1
  exact (List.pairwise_map.mp hplaces).filter _

theorem filter_isSymbol_eq {order : List (Token × Nat)} {row : List Token}
    (horder : order.map Prod.fst = row) :
    (order.filter fun entry => !entry.1.isSymbol).map Prod.fst =
      row.filter fun token => !token.isSymbol := by
  rw [← horder, List.filter_map]
  rfl

/-- Operands that are arranged as in a program stand in the order of the formula. -/
theorem filter_eq_of_inOrder {order : List (Token × Nat)}
    (hperm : order.Perm (numbered tokens first)) (hordered : order.Pairwise InOrder) :
    (order.filter fun entry => !entry.1.isSymbol) =
      (numbered tokens first).filter fun entry => !entry.1.isSymbol := by
  have hplaces : (order.filter fun entry => !entry.1.isSymbol).Pairwise
      fun earlier later => earlier.2 < later.2 := by
    refine (hordered.filter _).imp_of_mem fun _ hlater hentries => hentries ?_
    simpa using (List.mem_filter.mp hlater).2
  refine List.Perm.eq_of_pairwise ?_ hplaces ((pairwise_numbered tokens first).filter _)
    (hperm.filter _)
  intro earlier later _ _ hlt hgt
  exact absurd (Nat.lt_trans hlt hgt) (Nat.lt_irrefl _)

end Token

namespace Program

variable {tokens : List Token} {program : Program}

theorem exists_order (hprogram : ofTokens tokens = .ok program) :
    ∃ order : List (Token × Nat), order.map Prod.fst = program.tokens ∧
      order.Perm (numbered tokens 0) ∧ order.Pairwise InOrder := by
  obtain ⟨⟨emitted, waiting, outer⟩, hrun, houter, rfl⟩ := exists_of_ofTokens hprogram
  dsimp only at houter
  subst houter
  have harranges : Yard.Arranges ⟨emitted, waiting, []⟩ (numbered tokens 0) :=
    Yard.arranges_nil.run (List.forall_mem_nil _) hrun
  have hreleased : Yard.Arranges ⟨Yard.release waiting emitted, [], []⟩ (numbered tokens 0) :=
    Yard.Arranges.release ((List.append_nil waiting).symm ▸ harranges)
  obtain ⟨placed, pending, hplaced, hpending, hperm, hordered⟩ := hreleased
  obtain rfl : pending = [] := List.map_eq_nil_iff.mp hpending
  exact ⟨placed, hplaced, by simpa using hperm, hordered⟩

/-- What tokens make a program of. It has no parentheses, and the tokens of a formula but its
parentheses are all that is in it: the operands in their order, each operator as often as in the
formula. Numbered by their places in the formula, the tokens of the program stand in such an order
that before an operand there is nothing that it came before, so that each operator stands behind all
operands that came before it. A conversion that keeps everything on one stack gives the same. -/
theorem ofTokens_arrangement (hprogram : ofTokens tokens = .ok program) :
    Siding.convert tokens = .ok program.tokens ∧
    (∀ token ∈ program.tokens, token.isParenthesis = false) ∧
    (program.tokens.filter fun token => !token.isSymbol) =
      (tokens.filter fun token => !token.isSymbol) ∧
    (∀ operator, program.tokens.count (.symbol (.operator operator)) =
      tokens.count (.symbol (.operator operator))) ∧
    (∃ order : List (Token × Nat), order.map Prod.fst = program.tokens ∧
      order.Perm (numbered tokens 0) ∧
      order.Pairwise fun earlier later => later.1.isSymbol = false → earlier.2 < later.2) ∧
    program.length + tokens.countP Token.isParenthesis = tokens.length := by
  obtain ⟨order, horder, hperm, hordered⟩ := exists_order hprogram
  have htokens : program.tokens.Perm (tokens.filter fun token => !token.isParenthesis) := by
    rw [← horder, ← Token.map_fst_numbered tokens 0]
    exact hperm.map Prod.fst
  refine ⟨?_, ?_, ?_, ?_, ⟨order, horder, hperm, hordered⟩, ?_⟩
  · rw [Siding.convert_eq, hprogram]
    rfl
  · intro token htoken
    simpa using (List.mem_filter.mp (htokens.mem_iff.mp htoken)).2
  · rw [← Token.filter_isSymbol_eq horder, Token.filter_eq_of_inOrder hperm hordered,
      Token.filter_isSymbol_eq (Token.map_fst_numbered tokens 0), List.filter_filter]
    refine List.filter_congr fun token _ => ?_
    rcases token with operand | content <;> rfl
  · intro operator
    rw [htokens.count_eq, List.count_filter rfl]
  · have hlength : program.tokens.length = program.length := List.length_map _
    have hothers := List.length_eq_countP_add_countP (fun token : Token => !token.isParenthesis)
      (l := tokens)
    rw [← hlength, htokens.length_eq, ← List.countP_eq_length_filter, hothers]
    simp

/-- Tokens that no formula has make a program as well. The product waits for the end, behind the
operand that stands after the parenthesis. -/
theorem ofTokens_arrangement_incomplete :
    let product : Token := .symbol (.operator .multiply)
    let difference : Token := .symbol (.operator .subtract)
    let operand (name : String) : Token := .operand (.name name)
    let tokens : List Token := [operand "a", product, .symbol (.parenthesis .opening), operand "b",
      difference, .symbol (.parenthesis .closing), operand "c"]
    ofTokens tokens = .ok ⟨[.push (.name "a"), .push (.name "b"), .apply .subtract,
        .push (.name "c"), .apply .multiply]⟩ ∧
      Siding.convert tokens = .ok [operand "a", operand "b", difference, operand "c", product] ∧
      5 + tokens.countP Token.isParenthesis = tokens.length := by
  intro product difference operand tokens
  have hprogram : ofTokens tokens = .ok ⟨[.push (.name "a"), .push (.name "b"), .apply .subtract,
      .push (.name "c"), .apply .multiply]⟩ := by decide +kernel
  obtain ⟨hconvert, -, -, -, -, hlength⟩ := ofTokens_arrangement hprogram
  exact ⟨hprogram, hconvert, hlength⟩

end Program

end Formula
