import ParserCombinators.Text.Basic

/-!
Reading an integer from a text: blanks around it are dropped, a sign may stand
in front, single underscores may stand between digits, and every decimal digit
of the character database counts. More than 4300 digits are neither read nor
written.
-/

namespace ParserCombinators

namespace CodePoint

/-- The zeros of the decimal digit blocks; the nine other digits follow each. -/
def decimalZeros : List Nat :=
  [0x30, 0x660, 0x6f0, 0x7c0, 0x966, 0x9e6, 0xa66, 0xae6, 0xb66, 0xbe6, 0xc66, 0xce6, 0xd66,
  0xde6, 0xe50, 0xed0, 0xf20, 0x1040, 0x1090, 0x17e0, 0x1810, 0x1946, 0x19d0, 0x1a80, 0x1a90,
  0x1b50, 0x1bb0, 0x1c40, 0x1c50, 0xa620, 0xa8d0, 0xa900, 0xa9d0, 0xa9f0, 0xaa50, 0xabf0,
  0xff10, 0x104a0, 0x10d30, 0x11066, 0x110f0, 0x11136, 0x111d0, 0x112f0, 0x11450, 0x114d0,
  0x11650, 0x116c0, 0x11730, 0x118e0, 0x11950, 0x11c50, 0x11d50, 0x11da0, 0x16a60, 0x16ac0,
  0x16b50, 0x1d7ce, 0x1d7d8, 0x1d7e2, 0x1d7ec, 0x1d7f6, 0x1e140, 0x1e2f0, 0x1e950, 0x1fbf0]

def decimalDigit? (c : CodePoint) : Option Nat :=
  (decimalZeros.find? fun start => start ≤ c.val && c.val ≤ start + 9).map (c.val - ·)

def blankRanges : List (Nat × Nat) :=
  [(9, 13), (32, 32), (133, 133), (160, 160), (5760, 5760), (8192, 8202), (8232, 8233),
  (8239, 8239), (8287, 8287), (12288, 12288)]

def isBlank (c : CodePoint) : Bool := inRanges blankRanges c.val

end CodePoint

namespace Text

/-- How many digits an integer may have to be read or written. -/
def maximalDigits : Nat := 4300

/-- The least number that has too many digits. -/
def tooLong : Nat := Nat.pow 10 maximalDigits

/-- The digits of a numeral, single underscores between them dropped. -/
def digitValues? : Text → Option (List Nat)
  | [] => none
  | [c] => c.decimalDigit?.map ([·])
  | c :: d :: rest => do
    let n ← c.decimalDigit?
    if d = CodePoint.ofChar '_' then
      let ns ← digitValues? rest
      pure (n :: ns)
    else
      let ns ← digitValues? (d :: rest)
      pure (n :: ns)

def trimBlanks (t : Text) : Text :=
  ((t.dropWhile (·.isBlank)).reverse.dropWhile (·.isBlank)).reverse

def natural? (t : Text) : Option Nat := do
  let digits ← digitValues? t
  if digits.length ≤ maximalDigits then
    pure (digits.foldl (fun n d => 10 * n + d) 0)
  else none

def integer? (t : Text) : Option Int :=
  match trimBlanks t with
  | [] => none
  | c :: rest =>
    if c = CodePoint.ofChar '-' then (natural? rest).map fun n => -(n : Int)
    else if c = CodePoint.ofChar '+' then (natural? rest).map Int.ofNat
    else (natural? (c :: rest)).map Int.ofNat

end Text

end ParserCombinators
