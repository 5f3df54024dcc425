import ParserCombinators.Text.Lines
import ParserCombinators.Value.Written

/-!
The report of a failed parse: the source, the position and the error of the
failure, and notes that say where the position is. For a text the note gives
line and column and shows the part of the line around them above a caret.
-/

namespace ParserCombinators

structure Report where
  message : Text
  source : Value
  position : Int
  error : Value
  notes : List Text

namespace Report

/-- How many code points of a line a snippet shows. -/
def snippetWidth : Nat := 40

/-- A blank for every column before a one-based column, then the caret. -/
def caret (column : Int) : Text :=
  List.replicate (column - 1).toNat CodePoint.space ++ "^"

/-- The part of a line around a column and the caret line below it, if the
line reaches up to the column. -/
def snippet? (line : Text) (column : Int) : Option Text :=
  let half : Nat := snippetWidth / 2
  if column - 1 ≤ line.length then
    if column ≤ half then
      some (line.take snippetWidth ++ [CodePoint.newline] ++ caret column)
    else
      let start := (column - half).toNat
      some ((line.drop start).take snippetWidth ++ [CodePoint.newline] ++ caret half)
  else none

/-- Where a position of a text is, in words. -/
def placeNote (source : Text) (position : Int) : Text :=
  "At position " ++ Text.ofInt position ++ " (line " ++ Text.ofNat (source.lineAt position) ++
    ", column " ++ Text.ofInt (source.columnAt position) ++ ")"

/-- The place of a position and the snippet for it. -/
def positionNote (source : Text) (position : Int) : List Text :=
  let position := min position source.length
  let line := source.lines[source.lineAt position - 1]?
  placeNote source position :: (line.bind (snippet? · (source.columnAt position))).toList

end Report

end ParserCombinators
