import Formula.Program.Conversion
import Formula.Token.Scan

/-!
# From text to programs

A text is compiled in two passes, each of which may fail: its tokens are read, and then put in the
order of evaluation. Faults of single tokens therefore go before parentheses without a partner.
-/

namespace Formula.Program

/-- The program of a text, with the operands that were read on the way. -/
def compile (source : String) : Traced Program := do
  let tokens ← Token.scan source
  .silent (ofTokens tokens)

def ofText (source : String) : Except Error Program := (compile source).outcome

end Formula.Program
