import ParserCombinators.Text.Basic

/-!
The sets of characters that the parsers for texts know, in increasing order,
and the escapes that a quoted string resolves unless it is given others.
-/

namespace ParserCombinators.CharacterSet

/-- Tab, line feed, form feed, carriage return and space. -/
def whitespaces : Text := [9, 10, 12, 13, 32].map CodePoint.ofNat

def decimal : Text := "0123456789"

def hexadecimal : Text := "0123456789ABCDEFabcdef"

def signs : Text := "+-"

/-- Backspace, form feed, line feed, carriage return and tab, by their letters. -/
def generalEscapes : List (Text × Text) :=
  [("b", [.ofNat 8]), ("f", [.ofNat 12]), ("n", [.ofNat 10]), ("r", [.ofNat 13]),
    ("t", [.ofNat 9])]

end ParserCombinators.CharacterSet
