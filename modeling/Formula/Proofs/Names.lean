import Formula.Proofs.Assignments
import Formula.Proofs.Forest
import Formula.Proofs.Rejection

/-!
# The names of a program

A program lists the names it refers to in the order in which it first uses them. This is also the
order of their first occurrences in the text, although operators have changed their places. The list
is all that a run looks up: what is bound to other names has no part in it, and where a run reports a
name that is not bound, it is the first such name of the list.
-/

namespace Formula

/-! ## Rows without their repetitions -/

section rows

variable {α : Type}

/-- One element of a row occurs before another one does. -/
def OccursBefore (row : List α) (first second : α) : Prop :=
  ∃ before after, row = before ++ first :: after ∧ second ∉ before

theorem OccursBefore.append {row : List α} {first second : α}
    (hoccurs : OccursBefore row first second) (rest : List α) :
    OccursBefore (row ++ rest) first second := by
  obtain ⟨before, after, rfl, hsecond⟩ := hoccurs
  exact ⟨before, after ++ rest, by simp, hsecond⟩

variable [BEq α] [LawfulBEq α]

/-- The last element of a row is repeated, or is new and stays the last one. -/
theorem eraseDups_concat (row : List α) (last : α) :
    last ∈ row ∧ (row ++ [last]).eraseDups = row.eraseDups ∨
      last ∉ row ∧ (row ++ [last]).eraseDups = row.eraseDups ++ [last] := by
  rw [List.eraseDups_append]
  by_cases hlast : last ∈ row
  · exact .inl ⟨hlast, by simp [List.removeAll, hlast]⟩
  · exact .inr ⟨hlast, by simp [List.removeAll, hlast, List.eraseDups_cons]⟩

theorem nodup_eraseDups (row : List α) : row.eraseDups.Nodup := by
  induction row using List.reverseRecOn with
  | nil => exact List.nodup_nil
  | append_singleton row last ih =>
      rcases eraseDups_concat row last with ⟨-, heq⟩ | ⟨hlast, heq⟩
      · rw [heq]
        exact ih
      · rw [heq, List.nodup_append]
        refine ⟨ih, List.nodup_singleton _, ?_⟩
        rintro earlier hearlier _ hmem rfl
        obtain rfl := List.mem_singleton.mp hmem
        exact hlast (List.mem_eraseDups.mp hearlier)

/-- The first element of some kind is not one that is repeated later on. -/
theorem find?_eraseDups (p : α → Bool) (row : List α) :
    row.eraseDups.find? p = row.find? p := by
  induction row using List.reverseRecOn with
  | nil => rfl
  | append_singleton row last ih =>
      rcases eraseDups_concat row last with ⟨hlast, heq⟩ | ⟨-, heq⟩
      · rw [heq, ih, List.find?_append]
        cases hfind : row.find? p with
        | some found => rfl
        | none => simp [List.find?_eq_none.mp hfind last hlast]
      · rw [heq, List.find?_append, List.find?_append, ih]

/-- Without its repetitions, a row is in the order of first occurrences. -/
theorem pairwise_eraseDups (row : List α) : row.eraseDups.Pairwise (OccursBefore row) := by
  induction row using List.reverseRecOn with
  | nil => exact .nil
  | append_singleton row last ih =>
      have hold : row.eraseDups.Pairwise (OccursBefore (row ++ [last])) :=
        ih.imp fun hoccurs => hoccurs.append [last]
      rcases eraseDups_concat row last with ⟨-, heq⟩ | ⟨hlast, heq⟩
      · rw [heq]
        exact hold
      · rw [heq, List.pairwise_append]
        refine ⟨hold, List.pairwise_singleton _ _, ?_⟩
        intro earlier hearlier later hlater
        obtain rfl := List.mem_singleton.mp hlater
        obtain ⟨before, after, rfl⟩ := List.append_of_mem (List.mem_eraseDups.mp hearlier)
        refine ⟨before, after ++ [later], by simp, ?_⟩
        intro hbefore
        exact hlast (List.mem_append_left _ hbefore)

end rows

/-! ## Names of tokens and of pieces -/

/-- The name that a token refers to, if it refers to one. -/
def Token.name? : Token → Option String
  | operand content => content.name?
  | symbol _ => none

/-- The name that a piece of a text is, if it is one. -/
def Lexeme.name? : Lexeme → Option String
  | run characters =>
      if characters.head?.any Alphabet.startsNumber then none else some (.ofList characters)
  | symbol _ | stray _ => none

theorem Instruction.name?_eq (instruction : Instruction) :
    instruction.name? = instruction.operand?.bind Operand.name? := by
  cases instruction <;> rfl

theorem Token.name?_eq (token : Token) : token.name? = token.operand?.bind Operand.name? := by
  cases token <;> rfl

/-- The names in a program stand in the order of the tokens that it was made from. -/
theorem Program.filterMap_name?_of_ofTokens {tokens : List Token} {program : Program}
    (hprogram : ofTokens tokens = .ok program) :
    program.instructions.filterMap Instruction.name? = tokens.filterMap Token.name? := by
  rw [funext Instruction.name?_eq, funext Token.name?_eq, ← List.filterMap_filterMap,
    ← List.filterMap_filterMap, filterMap_operand?_of_ofTokens hprogram]

theorem Lexeme.Reads.name?_eq {piece : Lexeme} {token : Token} (hread : piece.Reads token) :
    token.name? = piece.name? := by
  cases hread with
  | symbol content => rfl
  | @run characters content hread =>
      unfold Operand.read at hread
      rw [name?]
      split at hread
      next hstart =>
        split at hread
        next =>
          obtain rfl := Except.ok.inj hread
          rw [if_pos hstart]
          rfl
        next => cases hread
      next hstart =>
        obtain rfl := Except.ok.inj hread
        rw [if_neg hstart]
        rfl

theorem Lexeme.filterMap_name?_of_reads {pieces : List Lexeme} {tokens : List Token}
    (hreads : List.Forall₂ Reads pieces tokens) :
    tokens.filterMap Token.name? = pieces.filterMap name? := by
  induction hreads with
  | nil => rfl
  | cons hread hrest ih => rw [List.filterMap_cons, List.filterMap_cons, hread.name?_eq, ih]

/-! ## Names in a text -/

/-- One name occurs in a text before another one does: it has an occurrence in front of all those of
the other. -/
def NamedBefore (text : List Char) (first second : String) : Prop :=
  ∃ before after, MaximalRun text before first.toList after ∧
    ∀ before' after', MaximalRun text before' second.toList after' →
      before.length < before'.length

theorem Lexeme.name?_eq_some_iff {piece : Lexeme} {name : String} :
    piece.name? = some name ↔
      piece = .run name.toList ∧ name.toList.head?.any Alphabet.startsNumber = false := by
  cases piece with
  | run characters =>
      rw [name?]
      split
      next hstart =>
        refine iff_of_false (by simp) ?_
        rintro ⟨heq, hname⟩
        rw [← Lexeme.run.inj heq, hstart] at hname
        cases hname
      next hstart =>
        constructor
        · rintro ⟨⟩
          rw [String.toList_ofList]
          exact ⟨rfl, Bool.eq_false_iff.mpr hstart⟩
        · rintro ⟨heq, -⟩
          rw [Lexeme.run.inj heq, String.ofList_toList]
  | symbol content => simp [name?]
  | stray c => simp [name?]

/-- Names occur in a text in the order in which they are found among its pieces. -/
theorem namedBefore_of_occursBefore {text : List Char} {first second : String}
    (hne : first ≠ second) (hsecond : second ∈ (Lexeme.split text).filterMap Lexeme.name?)
    (hoccurs : OccursBefore ((Lexeme.split text).filterMap Lexeme.name?) first second) :
    NamedBefore text first second := by
  obtain ⟨_, _, hnames, hbefore⟩ := hoccurs
  obtain ⟨earlier, rest, hsplit, rfl, hrest⟩ := List.filterMap_eq_append_iff.mp hnames
  obtain ⟨between, piece, later, rfl, hbetween, hpiece, -⟩ := List.filterMap_eq_cons_iff.mp hrest
  obtain ⟨rfl, -⟩ := Lexeme.name?_eq_some_iff.mp hpiece
  rw [← List.append_assoc] at hsplit
  obtain ⟨_, hfound⟩ := List.mem_filterMap.mp hsecond
  have hstart := (Lexeme.name?_eq_some_iff.mp hfound.2).2
  have habsent : .run second.toList ∉ earlier ++ between := by
    intro hmem
    have hname : (Lexeme.run second.toList).name? = some second :=
      Lexeme.name?_eq_some_iff.mpr ⟨rfl, hstart⟩
    rcases List.mem_append.mp hmem with hearlier | hnone
    · exact hbefore (List.mem_filterMap.mpr ⟨_, hearlier, hname⟩)
    · rw [hbetween _ hnone] at hname
      cases hname
  refine ⟨_, _, MaximalRun.of_split hsplit, ?_⟩
  intro before' after' hrun
  rcases hrun.cases_of_split hsplit with ⟨hmem, -⟩ | ⟨hsame, -⟩ | ⟨rest, rfl⟩
  · exact absurd hmem habsent
  · exact absurd (String.toList_inj.mp (Lexeme.run.inj hsame)) hne
  · have hpos := List.length_pos_iff.mpr (MaximalRun.of_split hsplit).ne_nil
    simp only [List.length_append, Lexeme.spelling]
    omega

namespace Program

variable {program : Program} {bindings : Bindings} {name : String}

/-- The names of the program of a text are listed in the order of their first occurrences. -/
theorem pairwise_names {text : String} (hprogram : ofText text = .ok program) :
    program.names.Pairwise (NamedBefore text.toList) := by
  obtain ⟨tokens, htokens, hconverted⟩ := exists_tokens_of_ofText hprogram
  have hnames : program.names = ((Lexeme.split text.toList).filterMap Lexeme.name?).eraseDups := by
    rw [names, filterMap_name?_of_ofTokens hconverted,
      Lexeme.filterMap_name?_of_reads (Token.tokenize_eq_ok_iff.mp htokens).1]
  rw [hnames]
  have hordered := (pairwise_eraseDups _).and
    (nodup_eraseDups ((Lexeme.split text.toList).filterMap Lexeme.name?))
  refine hordered.imp_of_mem fun _ hsecond hfirst => ?_
  exact namedBefore_of_occursBefore hfirst.2 (List.mem_eraseDups.mp hsecond) hfirst.1

/-! ## Names in a run -/

/-- A step that succeeds has found a value for its name. -/
theorem ne_none_of_step {instruction : Instruction} {stack next : List Float}
    (hstep : program.step bindings stack instruction = .ok next) :
    ∀ name ∈ instruction.name?, bindings name ≠ none := by
  rintro name hname hunbound
  rcases step_eq_ok_iff.mp hstep with ⟨operand, number, rfl, hvalue, -⟩ | ⟨_, _, _, _, rfl, -⟩
  · cases operand with
    | number value => cases hname
    | name word =>
        obtain rfl := Option.some.inj hname
        cases hunbound.symm.trans hvalue
  · cases hname

/-- Steps that stop at a name which is not bound have found all names before it bound. -/
theorem find?_of_foldlM_step {instructions : List Instruction} {stack : List Float}
    (hrun : instructions.foldlM (program.step bindings) stack = .error (.undefinedVariable name)) :
    ((instructions.filterMap Instruction.name?).find? fun name => (bindings name).isNone) =
      some name := by
  induction instructions generalizing stack with
  | nil => cases hrun
  | cons instruction rest ih =>
      rw [List.foldlM_cons] at hrun
      rw [List.filterMap_cons]
      rcases Except.bind_eq_error_iff.mp hrun with hstep | ⟨next, hstep, hrest⟩
      · rcases error_of_step hstep with ⟨found, hfound, hunbound, herror⟩ | ⟨operator, herror⟩
        · obtain rfl := Error.undefinedVariable.inj herror
          simp [hfound, hunbound]
        · cases herror
      · cases hname : instruction.name? with
        | none => exact ih hrest
        | some found =>
            have hbound := ne_none_of_step hstep found hname
            rw [List.find?_cons_of_neg (by simpa using hbound)]
            exact ih hrest

/-- A run that reports a name has found all names of the program before it bound. -/
theorem find?_names_of_run (hrun : program.run bindings = .error (.undefinedVariable name)) :
    (program.names.find? fun name => (bindings name).isNone) = some name := by
  rw [names, find?_eraseDups]
  rcases program.run_cases bindings with ⟨-, hempty⟩ |
    ⟨-, ⟨error, hstack, herror⟩ | ⟨number, -, hnumber⟩ | ⟨count, hleftover⟩⟩
  · cases hempty.symm.trans hrun
  · cases herror.symm.trans hrun
    exact find?_of_foldlM_step hstack
  · cases hnumber.symm.trans hrun
  · cases hleftover.symm.trans hrun

/-- A program that has a number as its value under some bindings has one under all others as well,
unless a name is not bound. -/
theorem run_of_number {number : Float} (hnumber : program.run bindings = .ok (.number number))
    (others : Bindings) :
    match program.names.find? fun name => (others name).isNone with
    | some name => program.run others = .error (.undefinedVariable name)
    | none => ∃ number, program.run others = .ok (.number number) := by
  obtain ⟨tree, htree, -⟩ := exists_number_iff.mp ⟨number, hnumber⟩
  obtain rfl : program = ⟨tree.postorder⟩ := by rw [htree]
  rw [names, find?_eraseDups, tree.filterMap_name?_postorder, tree.run_postorder, Tree.outcome]
  cases tree.names.find? fun name => (others name).isNone with
  | some name => rfl
  | none => exact ⟨_, rfl⟩

end Program

/-- What the names of a program say about the text and about runs. Each of them is listed once, they
are the operands of the text that do not begin like a number, and they are listed in the order of
their first occurrences in the text. Under bindings that agree on them, there is the same outcome. A
name that a run reports is the first one that is not bound, so that none is reported if all of them
are. And where there is a number under some bindings, there is one under all bindings of the names;
under others, the first name that is not bound is reported. -/
theorem Engine.names_of_compile {engine : Engine} {text : String} {program : Program}
    (hprogram : (engine.compile {} text).1.outcome = .ok program) :
    let source := (engine.source text).toList
    program.names.Nodup ∧
    (∀ name, name ∈ program.names ↔
      (∃ before after, MaximalRun source before name.toList after) ∧
        name.toList.head?.any Alphabet.startsNumber = false) ∧
    program.names.Pairwise (NamedBefore source) ∧
    (∀ bindings others, (∀ name ∈ program.names, bindings name = others name) →
      program.run bindings = program.run others) ∧
    (∀ bindings name, program.run bindings = .error (.undefinedVariable name) →
      (program.names.find? fun name => (bindings name).isNone) = some name) ∧
    (∀ bindings, (∀ name ∈ program.names, bindings name ≠ none) →
      ∀ name, program.run bindings ≠ .error (.undefinedVariable name)) ∧
    ∀ bindings number, program.run bindings = .ok (.number number) →
      ∀ others, match program.names.find? fun name => (others name).isNone with
        | some name => program.run others = .error (.undefinedVariable name)
        | none => ∃ number, program.run others = .ok (.number number) := by
  rw [outcome_compile_empty] at hprogram
  intro source
  refine ⟨nodup_eraseDups _, fun name => Program.mem_names_iff_maximalRun hprogram,
    Program.pairwise_names hprogram, ?_, ?_, ?_, ?_⟩
  · intro bindings others hagree
    exact Program.run_congr hagree
  · intro bindings name hrun
    exact Program.find?_names_of_run hrun
  · intro bindings hbound name hrun
    have hfind := Program.find?_names_of_run hrun
    have hunbound : bindings name = none := by simpa using List.find?_some hfind
    exact hbound name (List.mem_of_find?_eq_some hfind) hunbound
  · intro bindings number hnumber others
    exact Program.run_of_number hnumber others

/-- In a text in braces, whose program ends with an operator that stands before the name `c`. -/
theorem Engine.names_of_compile_braced :
    let program : Program := ⟨[.push (.name "b"), .push (.name "a"), .push (.name "b"),
      .apply .subtract, .apply .multiply, .push (.name "c"), .apply .divide]⟩
    (compile {} {} (braced "b*(a-b)/c")).1.outcome = .ok program ∧
      program.names = ["b", "a", "c"] ∧
      program.names.Pairwise (NamedBefore "b*(a-b)/c".toList) ∧
      program.run (fun _ => some 3) = .ok (.number 0) ∧
      program.run (Bindings.ofList [("b", 2)]) = .error (.undefinedVariable "a") := by
  intro program
  have hprogram : (compile {} {} (braced "b*(a-b)/c")).1.outcome = .ok program := by
    decide +kernel
  have hsource : source {} (braced "b*(a-b)/c") = "b*(a-b)/c" := by decide +kernel
  have hnumber : program.run (fun _ => some 3) = .ok (.number 0) := by decide +kernel
  obtain ⟨-, -, hordered, -, -, -, hothers⟩ := names_of_compile hprogram
  rw [hsource] at hordered
  have hrun := hothers _ _ hnumber (Bindings.ofList [("b", 2)])
  have hfind : (program.names.find? fun name => (Bindings.ofList [("b", 2)] name).isNone) =
      some "a" := by
    decide +kernel
  rw [hfind] at hrun
  exact ⟨hprogram, by decide +kernel, hordered, hnumber, hrun⟩

end Formula
