import Formula.Cache
import Formula.Program.Compilation
import Formula.Program.Machine

/-!
# Engines

An engine takes a formula from its text to its value. It is no more than two settings: whether a
pair of braces around a formula is taken off, and whether programs are kept in a cache. The cache
itself is handed in and handed back, so that any number of engines may share one. Its key is always
the text as it was given, braces included.
-/

namespace Formula

/-- The settings of an engine. -/
structure Engine where
  /-- Take one pair of braces off before a formula is compiled. -/
  unwrapBraces : Bool := true
  /-- Look for programs in the cache, and store them there. -/
  useCache : Bool := true
deriving DecidableEq, Repr, Inhabited

/-- A text without the pair of braces around it, or the text itself if there is no such pair. -/
def unwrapBraces (text : String) : String :=
  match text.toList with
  | '\x7b' :: rest => if rest.getLast? = some '\x7d' then .ofList rest.dropLast else text
  | _ => text

namespace Engine

/-- The part of a text that an engine compiles. -/
def source (engine : Engine) (text : String) : String :=
  if engine.unwrapBraces then Formula.unwrapBraces text else text

/-- The program of a text. -/
def compile (engine : Engine) (cache : Cache) (text : String) : Traced Program × Cache :=
  if engine.useCache then cache.request text fun _ => Program.compile (engine.source text)
  else (Program.compile (engine.source text), cache)

/-- The value of a text under bindings. The empty text has the empty value and leaves the cache
alone. -/
def evaluate (engine : Engine) (cache : Cache) (text : String) (bindings : Bindings) :
    Traced Value × Cache :=
  if text.isEmpty then (pure .empty, cache)
  else
    let (compiled, cache) := engine.compile cache text
    (compiled.andThen fun program => .silent (program.run bindings), cache)

/-- The text of the program of a text. Neither the settings nor a cache have a part in it. -/
def convert (text : String) : Traced String := return (← Program.compile text).text

end Engine

/-- The value of a text under bindings, by an engine with both settings on. What its cache holds
from earlier texts does not show in a value, so that the cache may as well be a new one. -/
def evaluate (text : String) (bindings : Bindings) : Except Error Value :=
  (Engine.evaluate {} {} text bindings).1.outcome

end Formula
