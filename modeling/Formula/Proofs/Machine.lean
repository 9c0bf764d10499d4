import Formula.Program.Machine
import Formula.Proofs.Outcome
import Mathlib.Algebra.BigOperators.Group.List.Basic
import Mathlib.Algebra.Ring.Int.Defs

/-!
# What a run does to the stack

Each step of a run adds one value to the stack or takes one from it, so that the steps of a program
say how many values it leaves. A run that fails does so because of a name or of the stack; the
faults of texts are not among those of runs.
-/

namespace Formula

/-- How many values a step adds to the stack. -/
def Instruction.gain : Instruction → Int
  | push _ => 1
  | apply _ => -1

/-- How many values steps add to the stack: the number of operands less that of operators. -/
def Instruction.surplus (instructions : List Instruction) : Int :=
  (instructions.map Instruction.gain).sum

/-- The value of an operand under bindings, if it has one. -/
def Operand.value? (bindings : Bindings) : Operand → Option Float
  | number value => some value
  | name word => bindings word

namespace Program

variable {program : Program} {bindings : Bindings}

theorem mem_names_iff {name : String} :
    name ∈ program.names ↔ name ∈ program.instructions.filterMap Instruction.name? :=
  List.mem_eraseDups

/-! ## Single steps -/

/-- All that a step can do when it succeeds: put the value of an operand on the stack, or replace
two values by one. The program has no part in it. -/
theorem step_eq_ok_iff {instruction : Instruction} {stack next : List Float} :
    program.step bindings stack instruction = .ok next ↔
      (∃ operand number, instruction = .push operand ∧ operand.value? bindings = some number ∧
        next = number :: stack) ∨
      ∃ operator left right rest, instruction = .apply operator ∧ stack = right :: left :: rest ∧
        next = operator.apply left right :: rest := by
  rcases instruction with (number | name) | operator
  · simp [step, Operand.value?, eq_comm]
  · cases hbound : bindings name with
    | none => simp [step, Operand.value?, hbound]
    | some number => simp [step, Operand.value?, hbound, eq_comm]
  · rcases stack with _ | ⟨right, _ | ⟨left, rest⟩⟩
    · simp [step]
    · simp [step]
    · simp [step, eq_comm]

theorem length_of_step {instruction : Instruction} {stack next : List Float}
    (hstep : program.step bindings stack instruction = .ok next) :
    (next.length : Int) = stack.length + instruction.gain := by
  rcases step_eq_ok_iff.mp hstep with ⟨operand, number, rfl, _, rfl⟩ |
    ⟨operator, left, right, rest, rfl, rfl, rfl⟩
  · rfl
  · simp only [List.length_cons, Instruction.gain]
    omega

theorem ne_nil_of_step {instruction : Instruction} {stack next : List Float}
    (hstep : program.step bindings stack instruction = .ok next) : next ≠ [] := by
  rcases step_eq_ok_iff.mp hstep with ⟨operand, number, _, _, rfl⟩ |
    ⟨operator, left, right, rest, _, _, rfl⟩
  · exact List.cons_ne_nil _ _
  · exact List.cons_ne_nil _ _

/-- A step that succeeds does the same on top of other values, which it does not touch, and in any
other program. -/
theorem step_append {instruction : Instruction} {stack next : List Float}
    (hstep : program.step bindings stack instruction = .ok next) (other : Program)
    (below : List Float) :
    other.step bindings (stack ++ below) instruction = .ok (next ++ below) := by
  apply step_eq_ok_iff.mpr
  rcases step_eq_ok_iff.mp hstep with ⟨operand, number, rfl, hvalue, rfl⟩ |
    ⟨operator, left, right, rest, rfl, rfl, rfl⟩
  · exact .inl ⟨operand, number, rfl, hvalue, rfl⟩
  · exact .inr ⟨operator, left, right, rest ++ below, rfl, rfl, rfl⟩

/-- A step fails if it looks for a name that is not bound, or finds too few values. -/
theorem error_of_step {instruction : Instruction} {stack : List Float} {error : Error}
    (hstep : program.step bindings stack instruction = .error error) :
    (∃ name, instruction.name? = some name ∧ bindings name = none ∧
      error = .undefinedVariable name) ∨ ∃ operator, error = program.underflow operator := by
  rcases instruction with (number | name) | operator
  · cases hstep
  · unfold step at hstep
    cases hbound : bindings name with
    | none =>
        simp only [hbound, Except.error.injEq] at hstep
        exact .inl ⟨name, rfl, hbound, hstep.symm⟩
    | some number => simp [hbound] at hstep
  · rcases stack with _ | ⟨right, _ | ⟨left, rest⟩⟩
    · exact .inr ⟨operator, (Except.error.inj hstep).symm⟩
    · exact .inr ⟨operator, (Except.error.inj hstep).symm⟩
    · cases hstep

/-- A step looks at no binding but that of its own name. -/
theorem step_congr {bindings' : Bindings} {instruction : Instruction}
    (hagree : ∀ name ∈ instruction.name?, bindings name = bindings' name) (stack : List Float) :
    program.step bindings stack instruction = program.step bindings' stack instruction := by
  rcases instruction with (number | name) | operator
  · rfl
  · simp only [step, hagree name rfl]
  · rfl

/-! ## Runs -/

theorem length_of_foldlM_step {instructions : List Instruction} {stack last : List Float}
    (hrun : instructions.foldlM (program.step bindings) stack = .ok last) :
    (last.length : Int) = stack.length + Instruction.surplus instructions := by
  induction instructions generalizing stack with
  | nil =>
      obtain rfl := Except.ok.inj hrun
      simp [Instruction.surplus]
  | cons instruction rest ih =>
      rw [List.foldlM_cons] at hrun
      obtain ⟨next, hstep, hrest⟩ := Except.bind_eq_ok_iff.mp hrun
      have hfirst := length_of_step hstep
      have hlater := ih hrest
      simp only [Instruction.surplus, List.map_cons, List.sum_cons] at hlater ⊢
      omega

theorem ne_nil_of_foldlM_step {instructions : List Instruction} {stack last : List Float}
    (hrun : instructions.foldlM (program.step bindings) stack = .ok last)
    (hne : stack ≠ [] ∨ instructions ≠ []) : last ≠ [] := by
  induction instructions generalizing stack with
  | nil =>
      obtain rfl := Except.ok.inj hrun
      exact hne.resolve_right (absurd rfl)
  | cons instruction rest ih =>
      rw [List.foldlM_cons] at hrun
      obtain ⟨next, hstep, hrest⟩ := Except.bind_eq_ok_iff.mp hrun
      exact ih hrest (.inl (ne_nil_of_step hstep))

theorem error_of_foldlM_step {instructions : List Instruction} {stack : List Float} {error : Error}
    (hrun : instructions.foldlM (program.step bindings) stack = .error error) :
    (∃ name ∈ instructions.filterMap Instruction.name?, bindings name = none ∧
      error = .undefinedVariable name) ∨ ∃ operator, error = program.underflow operator := by
  induction instructions generalizing stack with
  | nil => cases hrun
  | cons instruction rest ih =>
      rw [List.foldlM_cons] at hrun
      rcases Except.bind_eq_error_iff.mp hrun with hstep | ⟨next, _, hrest⟩
      · refine (error_of_step hstep).imp_left ?_
        rintro ⟨name, hname, hunbound⟩
        exact ⟨name, List.mem_filterMap.mpr ⟨instruction, List.mem_cons_self, hname⟩, hunbound⟩
      · refine (ih hrest).imp_left ?_
        rintro ⟨name, hname, hunbound⟩
        obtain ⟨later, hlater, hlook⟩ := List.mem_filterMap.mp hname
        exact ⟨name, List.mem_filterMap.mpr ⟨later, List.mem_cons_of_mem _ hlater, hlook⟩, hunbound⟩

theorem foldlM_step_append {instructions : List Instruction} {stack last : List Float}
    (hrun : instructions.foldlM (program.step bindings) stack = .ok last) (other : Program)
    (below : List Float) :
    instructions.foldlM (other.step bindings) (stack ++ below) = .ok (last ++ below) := by
  induction instructions generalizing stack with
  | nil =>
      obtain rfl := Except.ok.inj hrun
      rfl
  | cons instruction rest ih =>
      rw [List.foldlM_cons] at hrun
      obtain ⟨next, hstep, hrest⟩ := Except.bind_eq_ok_iff.mp hrun
      rw [List.foldlM_cons, step_append hstep other below]
      exact ih hrest

theorem foldlM_step_congr {bindings' : Bindings} {instructions : List Instruction}
    (hagree : ∀ name ∈ instructions.filterMap Instruction.name?, bindings name = bindings' name)
    (stack : List Float) :
    instructions.foldlM (program.step bindings) stack =
      instructions.foldlM (program.step bindings') stack := by
  induction instructions generalizing stack with
  | nil => rfl
  | cons instruction rest ih =>
      have hfirst : program.step bindings stack instruction =
          program.step bindings' stack instruction := by
        apply step_congr
        intro name hname
        exact hagree name (List.mem_filterMap.mpr ⟨instruction, List.mem_cons_self, hname⟩)
      rw [List.foldlM_cons, List.foldlM_cons, hfirst]
      refine congrArg (Except.bind _) (funext fun next => ih ?_ next)
      intro name hname
      obtain ⟨later, hlater, hfound⟩ := List.mem_filterMap.mp hname
      exact hagree name (List.mem_filterMap.mpr ⟨later, List.mem_cons_of_mem _ hlater, hfound⟩)

/-- A run depends on the bindings of the names of its program only, errors included. -/
theorem run_congr {bindings' : Bindings}
    (hagree : ∀ name ∈ program.names, bindings name = bindings' name) :
    program.run bindings = program.run bindings' := by
  unfold run
  rw [foldlM_step_congr fun name hname => hagree name (mem_names_iff.mpr hname)]

/-- All that a run can come to: the empty value without steps, and otherwise the error of a step, the
one number that is left at the end, or the error that another count of them is left. -/
theorem run_cases (program : Program) (bindings : Bindings) :
    (program.instructions = [] ∧ program.run bindings = .ok .empty) ∨
    program.instructions ≠ [] ∧
      ((∃ error, program.instructions.foldlM (program.step bindings) [] = .error error ∧
          program.run bindings = .error error) ∨
        (∃ number, program.instructions.foldlM (program.step bindings) [] = .ok [number] ∧
          program.run bindings = .ok (.number number)) ∨
        ∃ count, program.run bindings = .error (program.leftover count)) := by
  have hempty : program.isEmpty = true ↔ program.instructions = [] := List.isEmpty_iff
  unfold run
  by_cases hsteps : program.instructions = []
  · exact .inl ⟨hsteps, if_pos (hempty.mpr hsteps)⟩
  · rw [if_neg (mt hempty.mp hsteps)]
    refine .inr ⟨hsteps, ?_⟩
    cases program.instructions.foldlM (program.step bindings) [] with
    | error error => exact .inl ⟨error, rfl, rfl⟩
    | ok last =>
        rcases last with _ | ⟨number, _ | ⟨second, rest⟩⟩
        · exact .inr (.inr ⟨_, rfl⟩)
        · exact .inr (.inl ⟨number, rfl, rfl⟩)
        · exact .inr (.inr ⟨_, rfl⟩)

/-- A program has a number as its value only if it has steps and leaves just that number. -/
theorem foldlM_of_run {number : Float} (hrun : program.run bindings = .ok (.number number)) :
    program.instructions ≠ [] ∧
      program.instructions.foldlM (program.step bindings) [] = .ok [number] := by
  rcases program.run_cases bindings with ⟨-, hempty⟩ |
    ⟨hsteps, ⟨error, -, herror⟩ | ⟨found, hstack, hfound⟩ | ⟨count, herror⟩⟩
  · cases hempty.symm.trans hrun
  · cases herror.symm.trans hrun
  · cases hfound.symm.trans hrun
    exact ⟨hsteps, hstack⟩
  · cases herror.symm.trans hrun

/-- A program has a number as its value only if it has one operand more than operators. -/
theorem surplus_of_run {number : Float} (hrun : program.run bindings = .ok (.number number)) :
    Instruction.surplus program.instructions = 1 := by
  have hlength := length_of_foldlM_step (foldlM_of_run hrun).2
  simp at hlength
  exact hlength.symm

/-- A run fails at a name that is not bound, at an operator that finds too few values, or at the end
if one value is not what is left. -/
theorem cases_of_run_error {error : Error} (hrun : program.run bindings = .error error) :
    (∃ name ∈ program.instructions.filterMap Instruction.name?,
      error = .undefinedVariable name) ∨
    (∃ operator, error = program.underflow operator) ∨
    ∃ count, error = program.leftover count := by
  rcases program.run_cases bindings with ⟨-, hempty⟩ |
    ⟨-, ⟨found, hstack, hfound⟩ | ⟨number, -, hnumber⟩ | ⟨count, hleftover⟩⟩
  · cases hempty.symm.trans hrun
  · cases hfound.symm.trans hrun
    rcases error_of_foldlM_step hstack with ⟨name, hname, _, rfl⟩ | hunderflow
    · exact .inl ⟨name, hname, rfl⟩
    · exact .inr (.inl hunderflow)
  · cases hnumber.symm.trans hrun
  · exact .inr (.inr ⟨count, Except.error.inj (hrun.symm.trans hleftover)⟩)

/-- A run that fails has met a name that is not bound, or has not come down to a single value. -/
theorem error_of_run {error : Error} (hrun : program.run bindings = .error error) :
    (∃ name, error = .undefinedVariable name) ∨ error.isInternal = true := by
  rcases cases_of_run_error hrun with ⟨name, _, rfl⟩ | ⟨operator, rfl⟩ | ⟨count, rfl⟩
  · exact .inl ⟨name, rfl⟩
  · exact .inr rfl
  · exact .inr rfl

end Program

end Formula
