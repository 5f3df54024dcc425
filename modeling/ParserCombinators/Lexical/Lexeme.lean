import ParserCombinators.Lexical.Comment
import ParserCombinators.Value.Convert

/-!
Parsers with something to skip around them, and conversions of what they
output. What is skipped never fails, so the error of the parser itself is
always found under the same markers.
-/

namespace ParserCombinators.Rule

/-- Whitespace before and after; the outcome is that of the rule itself. -/
def lexeme (p : Rule) : Rule :=
  (p.surroundedBy whitespaces whitespaces).mapError fun e => do
    let inner ← e.output
    inner.output

/-- A rule after something that never fails. -/
def skipping (p skipped : Rule) : Rule := (p.precededBy skipped).mapError Value.output

def skipSpaces (p : Rule) : Rule := p.skipping space.manyQuietly

/-- A line comment is skipped if there is one. -/
def skipLineComment (start : Value) (p : Rule) : Rule := p.skipping (lineComment start).maybe

/-- A block comment is skipped if there is one. -/
def skipBlockComment (start stop : Value) (p : Rule) : Rule :=
  p.skipping (blockComment start stop).maybe

/-- Every output as a text. -/
def charToString (p : Rule) : Rule := p.map Value.toText

def toUppercase (p : Rule) : Rule := p.map Value.toUpper

def toLowercase (p : Rule) : Rule := p.map Value.toLower

end ParserCombinators.Rule
