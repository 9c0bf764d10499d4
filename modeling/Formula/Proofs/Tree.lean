import Formula.Program.Machine

/-!
# Trees and their programs

A formula in which every operator has its two operands is a binary tree. The steps of its evaluation
are the nodes of the tree in postorder, and on the machine they act as one push of the value of the
tree, whatever lies on the stack and whatever follows. Values are looked up from left to right, so
that the leftmost name without a binding is the one that is reported.
-/

namespace Formula

/-- The value of each name, and zero for a name that is not bound. -/
def Bindings.valuation (bindings : Bindings) (name : String) : Float := (bindings name).getD 0

inductive Tree where
  | leaf (operand : Operand)
  | node (operator : Operator) (left right : Tree)

namespace Tree

/-- The steps that evaluate a tree: those of the left side, those of the right side, and then the
operator. -/
def postorder : Tree → List Instruction
  | leaf operand => [.push operand]
  | node operator left right => left.postorder ++ (right.postorder ++ [.apply operator])

/-- The names that a tree refers to, from left to right, each as often as it occurs. -/
def names : Tree → List String
  | leaf operand => operand.name?.toList
  | node _ left right => left.names ++ right.names

/-- The value of a tree when all names have a value. -/
def value (valuation : String → Float) : Tree → Float
  | leaf (.number number) => number
  | leaf (.name name) => valuation name
  | node operator left right => operator.apply (left.value valuation) (right.value valuation)

/-- What the evaluation of a tree comes to: its value if all names are bound, and otherwise the
leftmost name that is not. -/
def outcome (bindings : Bindings) (tree : Tree) : Except Error Value :=
  match tree.names.find? fun name => (bindings name).isNone with
  | some name => .error (.undefinedVariable name)
  | none => .ok (.number (tree.value bindings.valuation))

theorem postorder_ne_nil (tree : Tree) : tree.postorder ≠ [] := by
  cases tree <;> simp [postorder]

/-- The steps of a tree act as one push of its value, or stop at the leftmost name that is not
bound. -/
theorem foldlM_postorder (tree : Tree) (program : Program) (bindings : Bindings)
    (stack : List Float) (rest : List Instruction) :
    (tree.postorder ++ rest).foldlM (program.step bindings) stack =
      match tree.names.find? fun name => (bindings name).isNone with
      | some name => .error (.undefinedVariable name)
      | none => rest.foldlM (program.step bindings) (tree.value bindings.valuation :: stack) := by
  induction tree generalizing stack rest with
  | leaf operand =>
      cases operand with
      | number number => rfl
      | name name =>
          cases hbound : bindings name with
          | none => simp [postorder, names, Operand.name?, Program.step, hbound, bind, Except.bind]
          | some number =>
              simp [postorder, names, Operand.name?, Program.step, hbound, value,
                Bindings.valuation, bind, Except.bind]
  | node operator left right ihleft ihright =>
      simp only [postorder, names, List.append_assoc, List.find?_append]
      rw [ihleft]
      cases left.names.find? fun name => (bindings name).isNone with
      | some name => rfl
      | none =>
          -- The value of the left side is on the stack while the right side is evaluated.
          dsimp only [Option.none_or]
          rw [ihright]
          cases right.names.find? fun name => (bindings name).isNone with
          | some name => rfl
          | none => rfl

/-- A program in postorder of a tree runs as the tree says. -/
theorem run_postorder (tree : Tree) (bindings : Bindings) :
    Program.run ⟨tree.postorder⟩ bindings = tree.outcome bindings := by
  have hsteps := tree.foldlM_postorder ⟨tree.postorder⟩ bindings [] []
  rw [List.append_nil] at hsteps
  unfold Program.run outcome
  rw [if_neg (by simp [Program.isEmpty, postorder_ne_nil]), hsteps]
  cases tree.names.find? fun name => (bindings name).isNone with
  | some name => rfl
  | none => rfl

end Tree

end Formula
