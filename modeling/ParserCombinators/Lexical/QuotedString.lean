import ParserCombinators.Lexical.Comment
import ParserCombinators.Rule.Bind

/-!
Strings between two equal quotes. After the escape a letter `u` and four
hexadecimal digits stand for a code point; every other element stands for its
replacement, or for itself if it has none. A failure consumes nothing, and a
malformed escape fails with an error of its own instead of the one for a
missing quote.
-/

namespace ParserCombinators.Rule

/-- The quotes of a string unless it is given others. -/
def generalQuotes : Value := .tuple [.text [CodePoint.doubleQuote], .text [CodePoint.singleQuote]]

/-- The escape of a string unless it is given another. -/
def generalEscape : Text := [CodePoint.backslash]

/-- The character whose code point a list of hexadecimal digits spells. -/
def spelledCharacter (digits : Value) : Run Value := do
  match ← digits.join with
  | .text t => pure (.text [CodePoint.ofNat (Text.numeralValue 16 t)])
  | _ => Run.fail .wrongType

def unicodeEscape : Rule :=
  ((characterOf CharacterSet.hexadecimal "Expected a hexadecimal digit.").exactly 4
    (.text "Expected 4 hexadecimal characters after unicode escape sequence.")).map
    spelledCharacter

/-- What an escaped element stands for. -/
def replacement (escapes : List (Text × Text)) : Value → Run Value
  | .text t => pure (.text ((escapes.lookup t).getD t))
  | v => if v.isHashable then pure v else Run.fail .wrongType

/-- What follows the escape and the element after it. -/
def resolveEscape (escapes : List (Text × Text)) (v : Value) : Run Rule :=
  if v.equals (.text "u") then pure unicodeEscape
  else do
    let w ← replacement escapes v
    w.requireWritable
    pure (always w)

def escaped (escape : Text) (escapes : List (Text × Text)) : Rule :=
  ((literal (.text escape) (expected (.text escape))).seq
    ((anything (.text ("Expected a character to escape after \x60" ++ escape ++ "\x60."))).andThen
      (resolveEscape escapes))).second

/-- An element that is neither the quote nor the escape. -/
def plainElement (quote : Value) (escape : Text) : Rule :=
  element (fun c => pure (!c.equals quote && !c.equals (.text escape)))
    (.text "Expected a character.")

/-- Of the errors of a missing quote and of an escape, the latter where an
escape has begun. -/
def closingError (errors : Value) : Run Value := do
  let e ← errors.item 1
  let side ← e.side
  if side = .right then e.output else errors.item 0

/-- The end of the string. -/
def closing (quote : Value) (escape : Text) (escapes : List (Text × Text)) : Rule :=
  ((literal quote (.text ("Expected closing quote \x60" ++ quote.display ++ "\x60."))).alt
    (escaped escape escapes)).mapError closingError

/-- The string after its opening quote. -/
def contents (escape : Text) (escapes : List (Text × Text)) (quote : Value) : Run Rule := do
  let _ ← quote.length
  pure ((((escaped escape escapes).alt (plainElement quote escape)).map
    Value.foldBranch).manyJoined.skip (closing quote escape escapes))

def quotedString (quotes : Value) (escape : Text) (escapes : List (Text × Text)) : Rule :=
  ((element (fun c => quotes.contains c) (.text "Expected a quoted string.")).andThen
    (contents escape escapes)).backtrack

end ParserCombinators.Rule
