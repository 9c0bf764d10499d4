import Formula.Proofs.Machine
import Formula.Proofs.Tree
import Mathlib.Data.Nat.Find

/-!
# Runs and the trees behind them

A run can be followed with trees in place of numbers: an operand becomes a leaf, and an operator
joins the two topmost trees. The trees on the stack are then what the steps so far are the postorder
of, and their values are what the machine has on its stack. This says what becomes of any program,
whether it was made from a formula or not: it stops at the first step that looks for a name without
a binding or finds too few values, and otherwise leaves as many values as there are trees.
-/

namespace Formula

namespace Tree

/-- A tree has a number as its outcome exactly if all of its names are bound. -/
theorem exists_number_iff {tree : Tree} {bindings : Bindings} :
    (∃ number, tree.outcome bindings = .ok (.number number)) ↔
      ∀ name ∈ tree.names, bindings name ≠ none := by
  unfold outcome
  cases hfind : tree.names.find? fun name => (bindings name).isNone with
  | none => simpa using hfind
  | some name =>
      refine iff_of_false (by simp) fun hbound => ?_
      exact hbound name (List.mem_of_find?_eq_some hfind) (by simpa using List.find?_some hfind)

/-! ## Trees in place of numbers -/

/-- One step on a stack of trees, the topmost first. -/
def graft (forest : List Tree) : Instruction → Option (List Tree)
  | .push operand => some (.leaf operand :: forest)
  | .apply operator =>
      match forest with
      | right :: left :: rest => some (.node operator left right :: rest)
      | _ => none

/-- The trees that steps build on top of others. -/
def assemble (forest : List Tree) (instructions : List Instruction) : Option (List Tree) :=
  instructions.foldlM graft forest

variable {forest next : List Tree} {instruction : Instruction} {instructions : List Instruction}

/-- All that a step can do when there are enough trees: put a leaf on them, or join two. -/
theorem graft_eq_some_iff :
    graft forest instruction = some next ↔
      (∃ operand, instruction = .push operand ∧ next = .leaf operand :: forest) ∨
      ∃ operator left right rest, instruction = .apply operator ∧ forest = right :: left :: rest ∧
        next = .node operator left right :: rest := by
  rcases instruction with operand | operator
  · simp [graft, eq_comm]
  · rcases forest with _ | ⟨right, _ | ⟨left, rest⟩⟩
    · simp [graft]
    · simp [graft]
    · simp [graft, eq_comm]

theorem graft_eq_none_iff :
    graft forest instruction = none ↔
      ∃ operator, instruction = .apply operator ∧ forest.length < 2 := by
  rcases instruction with operand | operator
  · simp [graft]
  · rcases forest with _ | ⟨right, _ | ⟨left, rest⟩⟩ <;> simp [graft]

/-- The steps of a tree build that tree, whatever trees there are and whatever follows. -/
theorem assemble_postorder (tree : Tree) (forest : List Tree) (rest : List Instruction) :
    assemble forest (tree.postorder ++ rest) = assemble (tree :: forest) rest := by
  induction tree generalizing forest rest with
  | leaf operand => rfl
  | node operator left right ihleft ihright =>
      rw [postorder, List.append_assoc, ihleft, List.append_assoc, ihright]
      rfl

theorem postorder_injective : Function.Injective postorder := by
  intro left right heq
  have hleft := assemble_postorder left [] []
  have hright := assemble_postorder right [] []
  rw [heq, hright] at hleft
  exact (List.cons.inj (Option.some.inj hleft)).1.symm

/-- The steps that build some trees, the topmost of which are the latest. -/
def postorders (forest : List Tree) : List Instruction := forest.reverse.flatMap postorder

theorem postorders_cons (tree : Tree) (forest : List Tree) :
    postorders (tree :: forest) = postorders forest ++ tree.postorder := by
  simp [postorders]

theorem postorders_of_graft (hgraft : graft forest instruction = some next) :
    postorders next = postorders forest ++ [instruction] := by
  rcases graft_eq_some_iff.mp hgraft with ⟨operand, rfl, rfl⟩ |
    ⟨operator, left, right, rest, rfl, rfl, rfl⟩
  · rw [postorders_cons, postorder]
  · simp only [postorders_cons, postorder, List.append_assoc]

end Tree

namespace Program

variable (program : Program) (bindings : Bindings)

/-! ## Obstacles -/

/-- What keeps the step at an index from being taken: it looks for a name that is not bound, or is
an operator before which less than two values are left over. -/
inductive Obstacle (index : Nat) : Error → Prop where
  | unbound {name : String} (hstep : program.instructions[index]? = some (.push (.name name)))
      (hunbound : bindings name = none) : Obstacle index (.undefinedVariable name)
  | scarce {operator : Operator} (hstep : program.instructions[index]? = some (.apply operator))
      (hscarce : Instruction.surplus (program.instructions.take index) < 2) :
      Obstacle index (program.underflow operator)

/-- The obstacle at the first index where there is one. -/
def FirstObstacle (error : Error) : Prop :=
  ∃ index, Obstacle program bindings index error ∧
    ∀ earlier fault, Obstacle program bindings earlier fault → index ≤ earlier

variable {program bindings}

/-! ## Runs -/

/-- A machine that holds the values of trees joins them as the trees are joined. -/
theorem step_map_value {forest next : List Tree} {instruction : Instruction}
    (hgraft : Tree.graft forest instruction = some next)
    (hbound : ∀ name, instruction = .push (.name name) → bindings name ≠ none) :
    program.step bindings (forest.map (Tree.value bindings.valuation)) instruction =
      .ok (next.map (Tree.value bindings.valuation)) := by
  rcases Tree.graft_eq_some_iff.mp hgraft with ⟨operand, rfl, rfl⟩ |
    ⟨operator, left, right, rest, rfl, rfl, rfl⟩
  · rcases operand with number | name
    · rfl
    · obtain ⟨number, hnumber⟩ := Option.ne_none_iff_exists'.mp (hbound name rfl)
      simp [step, hnumber, Tree.value, Bindings.valuation]
  · rfl

/-- As long as there is no obstacle, a run has taken the steps of some trees and holds the values of
these. -/
theorem exists_forest {count : Nat}
    (hclear : ∀ index < count, ∀ error, ¬ Obstacle program bindings index error) :
    ∃ forest : List Tree, Tree.postorders forest = program.instructions.take count ∧
      (program.instructions.take count).foldlM (program.step bindings) [] =
        .ok (forest.map (Tree.value bindings.valuation)) := by
  induction count with
  | zero => exact ⟨[], rfl, rfl⟩
  | succ count ih =>
      obtain ⟨forest, hsteps, hrun⟩ := ih fun index hindex => hclear index (Nat.lt_succ_of_lt hindex)
      rw [List.take_add_one]
      cases hstep : program.instructions[count]? with
      | none => exact ⟨forest, by simpa using hsteps, by simpa using hrun⟩
      | some instruction =>
          have hnone := hclear count (Nat.lt_succ_self count)
          have hlength := length_of_foldlM_step hrun
          cases hgraft : Tree.graft forest instruction with
          | none =>
              -- There are as many trees as values, and less than two of them are too few.
              obtain ⟨operator, rfl, hfew⟩ := Tree.graft_eq_none_iff.mp hgraft
              refine absurd (Obstacle.scarce hstep ?_) (hnone _)
              simp only [List.length_map, List.length_nil] at hlength
              omega
          | some next =>
              refine ⟨next, ?_, ?_⟩
              · rw [Tree.postorders_of_graft hgraft, hsteps, Option.toList_some]
              · rw [List.foldlM_append, hrun, Option.toList_some]
                have hbound : ∀ name, instruction = .push (.name name) → bindings name ≠ none := by
                  rintro name rfl hunbound
                  exact hnone _ (.unbound hstep hunbound)
                show [instruction].foldlM (program.step bindings) _ = _
                rw [List.foldlM_cons, step_map_value hgraft hbound]
                rfl

/-- A run that comes to an obstacle fails there. -/
theorem step_of_obstacle {index : Nat} {error : Error} {stack : List Float}
    (hobstacle : Obstacle program bindings index error)
    (hrun : (program.instructions.take index).foldlM (program.step bindings) [] = .ok stack) :
    ∃ instruction, program.instructions[index]? = some instruction ∧
      program.step bindings stack instruction = .error error := by
  cases hobstacle with
  | unbound hstep hunbound => exact ⟨_, hstep, by simp [step, hunbound]⟩
  | scarce hstep hscarce =>
      refine ⟨_, hstep, ?_⟩
      have hlength := length_of_foldlM_step hrun
      rcases stack with _ | ⟨right, _ | ⟨left, rest⟩⟩
      · rfl
      · rfl
      · simp only [List.length_cons, List.length_nil] at hlength
        omega

theorem FirstObstacle.run_eq {error : Error} (hfirst : FirstObstacle program bindings error) :
    program.run bindings = .error error := by
  obtain ⟨index, hobstacle, hleast⟩ := hfirst
  obtain ⟨forest, -, hrun⟩ := @exists_forest program bindings index
    fun earlier hearlier fault hfault =>
      absurd (hleast earlier fault hfault) (Nat.not_le.mpr hearlier)
  obtain ⟨instruction, hstep, herror⟩ := step_of_obstacle hobstacle hrun
  have hsplit : program.instructions = program.instructions.take index ++
      instruction :: program.instructions.drop (index + 1) := by
    rw [List.append_cons, ← Option.toList_some, ← hstep, ← List.take_add_one,
      List.take_append_drop]
  have hne : program.instructions ≠ [] := by
    rw [hsplit]
    simp
  unfold run
  rw [if_neg (by simpa [isEmpty] using hne), hsplit, List.foldlM_append, hrun]
  show (List.foldlM _ _ (instruction :: _) >>= _) = _
  rw [List.foldlM_cons, herror]
  rfl

theorem exists_firstObstacle {index : Nat} {error : Error}
    (hobstacle : Obstacle program bindings index error) :
    ∃ fault, FirstObstacle program bindings fault := by
  classical
  have hsome : ∃ index error, Obstacle program bindings index error := ⟨index, error, hobstacle⟩
  obtain ⟨fault, hfault⟩ := Nat.find_spec hsome
  exact ⟨fault, Nat.find hsome, hfault, fun earlier other hother => Nat.find_min' hsome ⟨other, hother⟩⟩

/-- A run without obstacles ends with the values of the trees that its program consists of. -/
theorem exists_forest_of_run (hclear : ∀ index error, ¬ Obstacle program bindings index error) :
    ∃ forest : List Tree, Tree.postorders forest = program.instructions ∧
      (forest.length : Int) = Instruction.surplus program.instructions ∧
      program.run bindings =
        match forest with
        | [] => .ok .empty
        | [tree] => .ok (.number (tree.value bindings.valuation))
        | _ => .error (program.leftover forest.length) := by
  obtain ⟨forest, hsteps, hrun⟩ :=
    @exists_forest program bindings program.instructions.length fun index _ => hclear index
  rw [List.take_length] at hsteps hrun
  have hlength := length_of_foldlM_step hrun
  refine ⟨forest, hsteps, by simpa using hlength, ?_⟩
  unfold run
  rcases forest with _ | ⟨tree, rest⟩
  · rw [if_pos (by simp [isEmpty, ← hsteps, Tree.postorders])]
  · have hne : program.instructions ≠ [] := by
      rw [← hsteps, Tree.postorders_cons]
      exact List.append_ne_nil_of_right_ne_nil _ tree.postorder_ne_nil
    rw [if_neg (by simpa [isEmpty] using hne), hrun]
    rcases rest with _ | ⟨second, rest⟩
    · rfl
    · simp [bind, Except.bind]

/-- A program has a number as its value exactly if it is the postorder of a tree all of whose names
are bound. -/
theorem exists_number_iff :
    (∃ number, program.run bindings = .ok (.number number)) ↔
      ∃ tree : Tree, tree.postorder = program.instructions ∧
        ∀ name ∈ tree.names, bindings name ≠ none := by
  have hpostorder {tree : Tree} (htree : tree.postorder = program.instructions) :
      program.run bindings = tree.outcome bindings := by
    rw [← tree.run_postorder, htree]
  constructor
  · rintro ⟨number, hnumber⟩
    obtain ⟨forest, hsteps, hlength, -⟩ := exists_forest_of_run fun index error hobstacle => by
      obtain ⟨fault, hfirst⟩ := exists_firstObstacle hobstacle
      cases hnumber.symm.trans hfirst.run_eq
    rw [surplus_of_run hnumber] at hlength
    obtain ⟨tree, rfl⟩ : ∃ tree, forest = [tree] := List.length_eq_one_iff.mp (by omega)
    have htree : tree.postorder = program.instructions := by simpa [Tree.postorders] using hsteps
    rw [hpostorder htree] at hnumber
    exact ⟨tree, htree, Tree.exists_number_iff.mp ⟨number, hnumber⟩⟩
  · rintro ⟨tree, htree, hbound⟩
    rw [hpostorder htree]
    exact Tree.exists_number_iff.mpr hbound

/-- What becomes of a program, whatever its steps are. It fails at the first of its obstacles, if it
meets any. Otherwise a program without steps has the empty value; one with one operand more than
operators is the postorder of exactly one tree, and has the value of that tree; and any other one
leaves at least two values over, as many as it has operands more than operators. A program has thus
a number as its value exactly if it is the postorder of a tree all of whose names are bound. -/
theorem run_by_obstacles (program : Program) (bindings : Bindings) :
    (∀ error, FirstObstacle program bindings error → program.run bindings = .error error) ∧
    ((¬ ∃ error, FirstObstacle program bindings error) →
      (program.instructions = [] → program.run bindings = .ok .empty) ∧
      (Instruction.surplus program.instructions = 1 → ∃ tree : Tree,
        (∀ other : Tree, other.postorder = program.instructions ↔ other = tree) ∧
        program.run bindings = .ok (.number (tree.value bindings.valuation))) ∧
      (program.instructions ≠ [] → Instruction.surplus program.instructions ≠ 1 →
        ∃ count : Nat, 2 ≤ count ∧ Instruction.surplus program.instructions = count ∧
          program.run bindings = .error (program.leftover count))) ∧
    ((∃ number, program.run bindings = .ok (.number number)) ↔
      ∃ tree : Tree, tree.postorder = program.instructions ∧
        ∀ name ∈ tree.names, bindings name ≠ none) := by
  refine ⟨fun error hfirst => hfirst.run_eq, fun hnone => ?_, exists_number_iff⟩
  obtain ⟨forest, hsteps, hlength, hrun⟩ := exists_forest_of_run fun index error hobstacle =>
    hnone (exists_firstObstacle hobstacle)
  refine ⟨fun hnil => ?_, fun hone => ?_, fun hne hsurplus => ?_⟩
  · rw [run, if_pos (by simp [isEmpty, hnil])]
  · obtain ⟨tree, rfl⟩ : ∃ tree, forest = [tree] := List.length_eq_one_iff.mp (by omega)
    refine ⟨tree, fun other => ?_, hrun⟩
    have htree : tree.postorder = program.instructions := by
      simpa [Tree.postorders] using hsteps
    rw [← htree, Tree.postorder_injective.eq_iff]
  · rcases forest with _ | ⟨tree, _ | ⟨second, rest⟩⟩
    · exact absurd hsteps.symm hne
    · exact absurd hlength.symm hsurplus
    · exact ⟨_, by simp, hlength.symm, hrun⟩

end Program

end Formula
