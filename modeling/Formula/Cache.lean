import Formula.Program
import Formula.Traced

/-!
# The cache of programs

A cache keeps programs under keys and counts how often a key was found and how often a compilation
was begun. A program that has been stored stays; a compilation that fails stores nothing, so that
the next request for its key compiles again.
-/

namespace Formula

/-- Programs under their keys, the latest first, and two counts. -/
structure Cache where
  programs : List (String × Program) := []
  /-- How many requests were answered with a stored program. -/
  hits : Nat := 0
  /-- How many compilations were begun, failed ones included. -/
  compilations : Nat := 0
deriving DecidableEq

namespace Cache

def find? (cache : Cache) (key : String) : Option Program := cache.programs.lookup key

def contains (cache : Cache) (key : String) : Bool := (cache.find? key).isSome

def size (cache : Cache) : Nat := cache.programs.length

/-- The program stored under a key, or else the one that a compilation makes, which is stored when
it succeeds. The compilation is begun only if there is no program, and what it reports comes before
the report of its end. -/
def request (cache : Cache) (key : String) (compile : Unit → Traced Program) :
    Traced Program × Cache :=
  match cache.find? key with
  | some program => (⟨.ok program, [.cacheHit key]⟩, { cache with hits := cache.hits + 1 })
  | none =>
      let made := compile ()
      let begun := { cache with compilations := cache.compilations + 1 }
      match made.outcome with
      | .ok program =>
          (⟨made.outcome, made.events ++ [.compiled key program.length]⟩,
            { begun with programs := (key, program) :: cache.programs })
      | .error error => (⟨made.outcome, made.events ++ [.compilationFailed key error]⟩, begun)

end Cache

end Formula
