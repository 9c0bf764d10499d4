import Formula.CommandLine.Invocation

/-!
# Arguments of the command line

How the standard surroundings read arguments. The arguments name one of four tasks. Some options
belong to every task and stand before or after its name; the others follow the name of a task that
has them. Options of one letter may be written together, an option that takes a value has it
attached or as the next argument, and two hyphens on their own end the options.

Arguments are taken from left to right, and the first fault decides. A value in an argument of its
own is looked at when the next option or formula begins, so that an argument that cannot be placed
at all goes before it.
-/

namespace Formula.CommandLine

/-- The tasks that a command names. -/
inductive Verb where
  | eval
  | convert
  | tokens
  | repl
deriving DecidableEq, Repr

namespace Verb

def word : Verb → String
  | eval => "eval"
  | convert => "postfix"
  | tokens => "tokens"
  | repl => "repl"

def ofWord? (word : String) : Option Verb :=
  [eval, convert, tokens, repl].find? fun verb => verb.word = word

def takesFormula : Verb → Bool
  | eval | convert | tokens => true
  | repl => false

def takesAssignments : Verb → Bool
  | eval | repl => true
  | convert | tokens => false

end Verb

inductive Topic where
  | program
  | verb (task : Verb)
  | help
deriving DecidableEq, Repr

/-- Why the arguments do not come down to a task. -/
inductive Halt where
  | misuse
  | assignment (argument : String) (fault : AssignmentFault)
  | help (topic : Topic)
  | version
deriving DecidableEq, Repr

inductive Switch where
  | verbose
  | noBraces
  | noCache
  | assign
  | statistics
  | help
  | version
deriving DecidableEq, Repr

namespace Switch

/-- Whether an option can stand after the name of a task or, without a task, before it. -/
def isAllowed (verb : Option Verb) : Switch → Bool
  | verbose | noBraces | noCache | help => true
  | assign => verb.any Verb.takesAssignments
  | statistics => verb = some .repl
  | version => verb = none

def ofLetter? (verb : Option Verb) (letter : Char) : Option Switch :=
  ([('v', verbose), ('s', assign), ('h', help), ('V', version)].lookup letter).filter
    (isAllowed verb)

def ofWord? (verb : Option Verb) (word : String) : Option Switch :=
  ([("verbose", verbose), ("no-braces", noBraces), ("no-cache", noCache), ("set", assign),
    ("stats", statistics), ("help", help), ("version", version)].lookup word).filter
    (isAllowed verb)

end Switch

/-- A value for an option that stands in an argument of its own. -/
inductive Pending where
  | nothing
  /-- The next argument must be the value. -/
  | wanted
  /-- The value has been given and not been looked at. -/
  | given (argument : String)
deriving DecidableEq, Repr

/-- What has been gathered from arguments so far. -/
structure Gathered where
  verbosity : Nat := 0
  noBraces : Bool := false
  noCache : Bool := false
  statistics : Bool := false
  formula : Option String := none
  assignments : List (String × Float) := []
  pending : Pending := .nothing

namespace Gathered

def assign (gathered : Gathered) (argument : String) : Except Halt Gathered :=
  match readAssignment argument with
  | .ok assignment => .ok { gathered with assignments := gathered.assignments ++ [assignment] }
  | .error fault => .error (.assignment argument fault)

/-- Look at the value that is pending. -/
def settle (gathered : Gathered) : Except Halt Gathered :=
  match gathered.pending with
  | .nothing => .ok gathered
  | .wanted => .error .misuse
  | .given argument => { gathered with pending := .nothing }.assign argument

def once (isSet : Bool) (gathered : Gathered) : Except Halt Gathered :=
  if isSet then .error .misuse else .ok gathered

def switch (verb : Option Verb) (gathered : Gathered) (option : Switch) : Except Halt Gathered := do
  let settled ← gathered.settle
  match option with
  | .verbose => .ok { settled with verbosity := settled.verbosity + 1 }
  | .noBraces => once settled.noBraces { settled with noBraces := true }
  | .noCache => once settled.noCache { settled with noCache := true }
  | .statistics => once settled.statistics { settled with statistics := true }
  | .assign => .ok { settled with pending := .wanted }
  | .help => .error (.help (verb.elim .program .verb))
  | .version => .error .version

/-- Take an option with the value that is attached to it. -/
def attached (gathered : Gathered) (option : Switch) (value : String) : Except Halt Gathered :=
  match option with
  | .assign => do (← gathered.settle).assign value
  | _ => .error .misuse

/-- Take options of one letter each. What follows the letter of an option with a value is the
value, after an equals sign if there is one. -/
def letters (verb : Option Verb) (gathered : Gathered) : List Char → Except Halt Gathered
  | [] => .ok gathered
  | letter :: rest =>
      match Switch.ofLetter? verb letter with
      | none => .error .misuse
      | some .assign =>
          match rest with
          | [] => gathered.switch verb .assign
          | '=' :: value => gathered.attached .assign (.ofList value)
          | value => gathered.attached .assign (.ofList value)
      | some option => do (← gathered.switch verb option).letters verb rest

/-- Take an option that is a word, with a value if there is an equals sign in it. -/
def word (verb : Option Verb) (gathered : Gathered) (text : List Char) : Except Halt Gathered :=
  match Switch.ofWord? verb (.ofList (text.takeWhile (· ≠ '='))) with
  | none => .error .misuse
  | some option =>
      match text.dropWhile (· ≠ '=') with
      | [] => gathered.switch verb option
      | _ :: value => gathered.attached option (.ofList value)

/-- Take an argument that stands on its own: the formula of a task that has one. -/
def formulaOf (verb : Verb) (gathered : Gathered) (argument : String) : Except Halt Gathered :=
  if verb.takesFormula ∧ gathered.formula = none then do
    return { ← gathered.settle with formula := some argument }
  else .error .misuse

/-- Take an argument after the name of a task, as long as options have not been ended. -/
def argument (verb : Verb) (gathered : Gathered) (text : String) : Except Halt Gathered :=
  match text.toList with
  | '-' :: '-' :: characters => gathered.word (some verb) characters
  | '-' :: letter :: rest => gathered.letters (some verb) (letter :: rest)
  | _ =>
      if gathered.pending = .wanted then .ok { gathered with pending := .given text }
      else gathered.formulaOf verb text

/-- Take the arguments after the name of a task. -/
def arguments (verb : Verb) (gathered : Gathered) : List String → Except Halt Gathered
  | [] => gathered.settle
  | "--" :: rest => do (← rest.foldlM (formulaOf verb) gathered).settle
  | text :: rest => do (← gathered.argument verb text).arguments verb rest

/-- The task with the formula and the assignments that were given for it. -/
def task (verb : Verb) (gathered : Gathered) : Except Halt Task :=
  match verb, gathered.formula with
  | .eval, some formula => .ok (.eval formula gathered.assignments)
  | .convert, some formula => .ok (.convert formula)
  | .tokens, some formula => .ok (.tokens formula)
  | .repl, _ => .ok (.repl gathered.assignments gathered.statistics)
  | _, none => .error .misuse

/-- What is asked for by the options before the name of a task and the arguments after it. More
talk is asked for as often as after the name, if it is asked for there at all. -/
def invocation (before after : Gathered) (verb : Verb) : Except Halt Invocation := do
  let options : Options :=
    { verbosity := if after.verbosity = 0 then before.verbosity else after.verbosity
      noBraces := before.noBraces || after.noBraces
      noCache := before.noCache || after.noCache }
  return ⟨options, ← after.task verb⟩

def helpTopic : List String → Halt
  | [] => .help .program
  | ["help"] => .help .help
  | [word] =>
      match Verb.ofWord? word with
      | some verb => .help (.verb verb)
      | none => .misuse
  | _ => .misuse

/-- Take the arguments from the options before the name of a task on. -/
def leading (gathered : Gathered) : List String → Except Halt Invocation
  | [] => .error .misuse
  | text :: rest =>
      match Verb.ofWord? text with
      | some verb => do gathered.invocation (← arguments verb {} rest) verb
      | none =>
          if text = "help" then .error (helpTopic rest)
          else
            match text.toList with
            | '-' :: '-' :: characters => do (← gathered.word none characters).leading rest
            | '-' :: letter :: letters => do
                (← gathered.letters none (letter :: letters)).leading rest
            | _ => .error .misuse

end Gathered

/-- What the arguments ask for. -/
def readArguments (arguments : List String) : Except Halt Invocation :=
  Gathered.leading {} arguments

end Formula.CommandLine
