import ParserCombinators.Text.Printable

/-!
Quoted notation of texts and of byte strings. The quote in use is the single
one unless the content holds single quotes and no double ones; the quote in
use, the backslash and everything that cannot be shown is escaped.
-/

namespace ParserCombinators

namespace CodePoint

def singleQuote : CodePoint := ofNat 39

def doubleQuote : CodePoint := ofNat 34

def backslash : CodePoint := ofNat 92

/-- The escapes that quoted texts and quoted bytes share. -/
def shortEscape? (quote c : CodePoint) : Option Text :=
  if c = quote ∨ c = backslash then some [backslash, c]
  else if c.val = 9 then some [backslash, ofChar 't']
  else if c.val = 10 then some [backslash, ofChar 'n']
  else if c.val = 13 then some [backslash, ofChar 'r']
  else none

def hexEscape (letter : Char) (width : Nat) (c : CodePoint) : Text :=
  backslash :: ofChar letter :: Text.paddedHex width c.val

/-- How a code point is written inside quotes. -/
def inQuotes (quote c : CodePoint) : Text :=
  match shortEscape? quote c with
  | some escape => escape
  | none =>
    if c.isPrintable then [c]
    else if c.val < 0x100 then hexEscape 'x' 2 c
    else if c.val < 0x10000 then hexEscape 'u' 4 c
    else hexEscape 'U' 8 c

/-- How a byte is written inside quotes: only ASCII is shown. -/
def byteInQuotes (quote c : CodePoint) : Text :=
  match shortEscape? quote c with
  | some escape => escape
  | none => if 0x20 ≤ c.val ∧ c.val < 0x7f then [c] else hexEscape 'x' 2 c

end CodePoint

namespace Text

def quoteFor (t : Text) : CodePoint :=
  if t.contains CodePoint.singleQuote && !t.contains CodePoint.doubleQuote then
    CodePoint.doubleQuote
  else CodePoint.singleQuote

def quoted (t : Text) : Text :=
  let quote := t.quoteFor
  quote :: t.flatMap (CodePoint.inQuotes quote) ++ [quote]

def ofBytes (bytes : List UInt8) : Text := bytes.map fun b => CodePoint.ofNat b.toNat

def quotedBytes (bytes : List UInt8) : Text :=
  let t := ofBytes bytes
  let quote := t.quoteFor
  CodePoint.ofChar 'b' :: quote :: t.flatMap (CodePoint.byteInQuotes quote) ++ [quote]

end Text

end ParserCombinators
