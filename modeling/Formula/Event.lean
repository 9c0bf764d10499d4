import Formula.Error
import Formula.Text.Quoted

/-!
# Events

What a computation reports on its way, for the log. An event has one of two levels; who listens
at the coarser level does not hear of the finer one.
-/

namespace Formula

inductive Level where
  | debug
  | trace
deriving DecidableEq, Repr, Inhabited

def Level.name : Level → String
  | .debug => "DEBUG"
  | .trace => "TRACE"

/-- Something worth a line in the log. -/
inductive Event where
  /-- The text of an operand is about to be read. -/
  | operand (text : String)
  /-- A program was found in the cache. -/
  | cacheHit (key : String)
  /-- A compilation for the cache failed. -/
  | compilationFailed (key : String) (error : Error)
  /-- A program of some length was compiled for the cache. -/
  | compiled (key : String) (length : Nat)
  /-- A line of a dialogue has no value. -/
  | lineFailed (line : String) (error : Error)
deriving DecidableEq, Repr

namespace Event

def level : Event → Level
  | operand _ | cacheHit _ => .trace
  | compilationFailed _ _ | compiled _ _ | lineFailed _ _ => .debug

/-- The part of the program that an event comes from. -/
def target : Event → String
  | operand _ => "exprcalc::tokenizer"
  | cacheHit _ | compilationFailed _ _ | compiled _ _ => "exprcalc::cache"
  | lineFailed _ _ => "exprcalc"

def message : Event → String
  | operand text => "operand " ++ Text.quoted text
  | cacheHit key => "formula cache hit: " ++ Text.quoted key
  | compilationFailed key error => "failed to compile " ++ Text.quoted key ++ ": " ++ error.message
  | compiled key length =>
      "compiled " ++ Text.quoted key ++ " into " ++ length.repr ++ " postfix tokens"
  | lineFailed line error => Text.quoted line ++ " failed: " ++ error.kind

end Event

end Formula
