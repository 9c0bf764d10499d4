import Formula.Text.Blank

/-!
# Lines of standard input

Standard input is a row of bytes. It is cut into lines before anything is decoded, so that a line
which is no UTF-8 leaves the lines before it alone.
-/

namespace Formula.CommandLine

def lineFeed : UInt8 := 10

/-- The lines of bytes, without the bytes that end them. The last line need not be ended; nothing
after the last end is no line. -/
def byteLines : List UInt8 → List (List UInt8)
  | [] => []
  | byte :: rest =>
      if byte = lineFeed then [] :: byteLines rest
      else
        match byteLines rest with
        | [] => [[byte]]
        | line :: lines => (byte :: line) :: lines

/-- The text of a line without the carriage returns at its end, or nothing if the line is no
UTF-8. -/
def decodeLine (bytes : List UInt8) : Option String :=
  (String.fromUTF8? ⟨bytes.toArray⟩).map fun text =>
    .ofList (Text.dropEndWhile (· = '\r') text.toList)

def inputLines (bytes : List UInt8) : List (Option String) := (byteLines bytes).map decodeLine

end Formula.CommandLine
