import ParserCombinators.Text.Basic

/-!
Lines and columns. A text is cut into lines at every line boundary of the
character database, a carriage return and the line feed after it being one
boundary, while a line number counts line feeds alone.
-/

namespace ParserCombinators

namespace CodePoint

def carriageReturn : CodePoint := ofNat 13

def isLineBoundary (c : CodePoint) : Bool :=
  [0x0a, 0x0b, 0x0c, 0x0d, 0x1c, 0x1d, 0x1e, 0x85, 0x2028, 0x2029].contains c.val

end CodePoint

namespace Text

/-- The lines of the second text, the first being the begun line. A boundary
at the very end begins no further line. -/
def linesFrom (line : Text) : Text → List Text
  | [] => if line.isEmpty then [] else [line]
  | [c] => if c.isLineBoundary then [line] else [line ++ [c]]
  | c :: d :: rest =>
    if c = CodePoint.carriageReturn ∧ d = CodePoint.newline then line :: linesFrom [] rest
    else if c.isLineBoundary then line :: linesFrom [] (d :: rest)
    else linesFrom (line ++ [c]) (d :: rest)

def lines (t : Text) : List Text := linesFrom [] t

/-- The part of a text before a position, which counts from the end if it is negative. -/
def before (t : Text) (position : Int) : Text :=
  t.take (if position < 0 then position + t.length else position).toNat

/-- One more than the number of line feeds before a position. -/
def lineAt (t : Text) (position : Int) : Nat :=
  (t.before position).count CodePoint.newline + 1

/-- Index of the last line feed before a position, or -1. -/
def lastNewlineBefore (t : Text) (position : Int) : Int :=
  let head := t.before position
  (head.length : Int) - 1 - (head.reverse.takeWhile (· != CodePoint.newline)).length

/-- The distance of a position from the last line feed before it. -/
def columnAt (t : Text) (position : Int) : Int :=
  position - t.lastNewlineBefore position

end Text

end ParserCombinators
