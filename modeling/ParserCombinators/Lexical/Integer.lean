import ParserCombinators.Lexical.Blank
import ParserCombinators.Rule.Look
import ParserCombinators.Value.Convert

/-!
Decimal integers with an optional sign. A failure consumes nothing.
-/

namespace ParserCombinators.Rule

/-- The integer spelled by an optional sign and a list of digits. -/
def signedInteger (pair : Value) : Run Value := do
  let sign ← pair.item 0
  let digits ← pair.item 1
  let t ← digits.join
  let spelled ← (if sign.isTrue then sign else .text []).plus t
  spelled.toInteger

def integer : Rule :=
  (((characterOf CharacterSet.signs "Expected a sign.").maybe.seq
    ((characterOf CharacterSet.decimal "Expected a digit.").atLeast 1
      (.text "Expected an integer."))).map signedInteger).fold.backtrack

end ParserCombinators.Rule
