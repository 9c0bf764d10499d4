import Formula.CommandLine.Standard

/-!
# The program

The command line as a program in the standard surroundings: standard input is read if the command
takes it, and what the command leaves behind is written.
-/

open Formula.CommandLine (standard)

/-- Carry out the command that the arguments make. -/
def main (arguments : List String) : IO UInt32 := do
  let input ←
    if standard.readsInput arguments then (← IO.getStdin).readBinToEnd
    else pure ByteArray.empty
  let outcome := standard.run arguments input.toList
  (← IO.getStdout).putStr outcome.output
  (← IO.getStderr).putStr outcome.complaints
  return outcome.code.toUInt32
