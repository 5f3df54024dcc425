import ParserCombinators.Lexical.Blank
import ParserCombinators.Rule.Look

/-!
Comments up to the end of a line and comments between two delimiters. Both
output the content alone. Block comments do not nest: the first closing
delimiter ends them.
-/

namespace ParserCombinators.Rule

/-- The error for a delimiter that is missing. -/
def expected (what : Value) : Value := .text ("Expected \x60" ++ what.display ++ "\x60.")

/-- The part of a line that is not its line feed. -/
def lineContent : Rule :=
  manyJoined
    (element (fun c => pure !c.equals (.text [CodePoint.newline]))
      (.text "Expected comment content."))

/-- A comment to the end of the line; the line feeds after it are consumed too. -/
def lineComment (start : Value) : Rule :=
  ((((literal start (expected start)).seq lineContent).seq newline.manyQuietly).map
    middle).foldAll

/-- An element at which a closing delimiter does not begin. -/
def blockElement (stop : Value) : Rule :=
  (((literal stop (expected stop)).not (.text ("Reached \x60" ++ stop.display ++ "\x60."))).seq
    (anything (.text "Unterminated block comment."))).second

/-- A comment between delimiters. -/
def blockComment (start stop : Value) : Rule :=
  ((((literal start (expected start)).seq (blockElement stop).manyJoined).seq
    (literal stop
      (.text ("Expected \x60" ++ stop.display ++ "\x60 to close the block comment.")))).map
    middle).foldAll

end ParserCombinators.Rule
