/-!
# Bindings

The values of names in an evaluation. A name without a value is not bound.
-/

namespace Formula

/-- What each name stands for, if it is bound. -/
abbrev Bindings := String → Option Float

namespace Bindings

def empty : Bindings := fun _ => none

/-- The bindings that a list gives. A later entry of a name replaces the earlier ones. -/
def ofList : List (String × Float) → Bindings
  | [], _ => none
  | (name, value) :: later, wanted =>
      match ofList later wanted with
      | some found => some found
      | none => if name = wanted then some value else none

end Bindings

end Formula
