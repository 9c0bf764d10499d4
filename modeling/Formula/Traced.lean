import Formula.Event

/-!
# Computations that report

A traced computation has an outcome and the events it reported until then, in order. In a sequence
the events of the parts follow each other, up to the first part that fails; the outcome does not
depend on them.
-/

namespace Formula

/-- An outcome and what was reported before it was reached. -/
structure Traced (α : Type) where
  outcome : Except Error α
  events : List Event

namespace Traced

variable {α β : Type}

/-- An outcome that was reached without a report. -/
def silent (outcome : Except Error α) : Traced α := ⟨outcome, []⟩

/-- A failure that was reached without a report. -/
def fail (error : Error) : Traced α := silent (.error error)

def report (event : Event) : Traced Unit := ⟨.ok (), [event]⟩

/-- One computation after another, unless the first one fails. -/
def andThen (first : Traced α) (next : α → Traced β) : Traced β :=
  match first.outcome with
  | .error error => ⟨.error error, first.events⟩
  | .ok value => ⟨(next value).outcome, first.events ++ (next value).events⟩

/-- A computation whose value is passed through a function. -/
def map (f : α → β) (computation : Traced α) : Traced β :=
  ⟨computation.outcome.map f, computation.events⟩

instance : Monad Traced where
  map := map
  pure value := silent (.ok value)
  bind := andThen

/-- Outcomes are sequenced as if there were no events. -/
theorem outcome_bind (first : Traced α) (next : α → Traced β) :
    (first >>= next).outcome = first.outcome >>= fun value => (next value).outcome := by
  rcases first with ⟨_ | value, events⟩ <;> rfl

end Traced

end Formula
