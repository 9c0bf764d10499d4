import Formula.CommandLine.Arguments

/-!
# Help

The texts that describe the commands. A description is set in two columns, the first of which is as
wide as its widest entry.
-/

namespace Formula.CommandLine

/-- A heading with entries and what is said about each. -/
structure HelpSection where
  heading : String
  entries : List (String × String)

/-- A text of help: a sentence, how the command is written, and its parts. -/
structure HelpText where
  about : String
  usage : String
  sections : List HelpSection

namespace HelpSection

def columnWidth (entries : List (String × String)) : Nat :=
  entries.foldl (fun width entry => if width < entry.1.length then entry.1.length else width) 0

def text (part : HelpSection) : String :=
  let width := columnWidth part.entries
  let row (entry : String × String) : String :=
    "  " ++ entry.1 ++ .ofList (List.replicate (width - entry.1.length) ' ') ++ "  " ++ entry.2 ++
      "\n"
  "\n" ++ part.heading ++ ":\n" ++ String.join (part.entries.map row)

end HelpSection

def HelpText.text (help : HelpText) : String :=
  help.about ++ "\n\nUsage: " ++ help.usage ++ "\n" ++
    String.join (help.sections.map HelpSection.text)

def Verb.about : Verb → String
  | .eval => "Evaluate a formula and print the result"
  | .convert => "Print the postfix form of a formula"
  | .tokens => "Print the tokens of a formula, one per line"
  | .repl => "Evaluate formulas read from stdin, one per line"

def aboutHelp : String := "Print this message or the help of the given subcommand(s)"

/-- The entry of an option in a text of help. -/
def Switch.entry : Switch → String × String
  | .verbose => ("-v, --verbose...", "Increase log verbosity (-v debug, -vv trace)")
  | .noBraces =>
      ("    --no-braces", "Compile `\x7b...\x7d` literally instead of stripping the outer braces")
  | .noCache => ("    --no-cache", "Recompile formulas on every evaluation")
  | .assign => ("-s, --set <NAME=VALUE>", "Variable binding NAME=VALUE (repeatable)")
  | .statistics => ("    --stats", "Print cache statistics at end of input")
  | .help => ("-h, --help", "Print help")
  | .version => ("-V, --version", "Print version")

/-- The options of a task, or of the program, in the order in which help lists them. -/
def optionSection (verb : Option Verb) : HelpSection :=
  let order : List Switch :=
    [.assign, .verbose, .noBraces, .statistics, .noCache, .help, .version]
  ⟨"Options", (order.filter (Switch.isAllowed verb)).map Switch.entry⟩

def Verb.formulaEntry : Verb → List (String × String)
  | .eval => [("<EXPR>", "Formula, e.g. \x22(price*qty)-discount\x22")]
  | .convert => [("<EXPR>", "Formula to convert")]
  | .tokens => [("<EXPR>", "Formula to tokenize")]
  | .repl => []

def Verb.helpText (verb : Verb) : HelpText :=
  let formula := if verb.takesFormula then " <EXPR>" else ""
  let positional := verb.formulaEntry
  { about := verb.about
    usage := "exprcalc " ++ verb.word ++ " [OPTIONS]" ++ formula
    sections :=
      (if positional.isEmpty then [] else [⟨"Arguments", positional⟩]) ++
        [optionSection (some verb)] }

def programHelp : HelpText :=
  let entry (verb : Verb) : String × String := (verb.word, verb.about)
  { about := "Arithmetic formula evaluator"
    usage := "exprcalc [OPTIONS] <COMMAND>"
    sections :=
      [⟨"Commands", [.eval, .convert, .tokens, .repl].map entry ++ [("help", aboutHelp)]⟩,
        optionSection none] }

def Topic.helpText : Topic → HelpText
  | .program => programHelp
  | .verb task => task.helpText
  | .help =>
      { about := aboutHelp
        usage := "exprcalc help [COMMAND]..."
        sections := [⟨"Arguments", [("[COMMAND]...", "Print help for the subcommand(s)")]⟩] }

end Formula.CommandLine
