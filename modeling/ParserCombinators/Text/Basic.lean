/-!
Text as the list of its code points. A parser may be handed any sequence of
code points and an escape may spell any of them, so surrogates are code points
like the others, which `Char` would not allow. Numbers are written and read
here in their positional notation.
-/

namespace ParserCombinators

@[ext]
structure CodePoint where
  val : Nat
  lt : val < 0x110000
  deriving DecidableEq

abbrev Text := List CodePoint

namespace CodePoint

/-- The code point of a number, which counts modulo the size of the code space. -/
def ofNat (n : Nat) : CodePoint := ⟨n % 0x110000, Nat.mod_lt n (by decide)⟩

theorem val_ofNat {n : Nat} (h : n < 0x110000) : (ofNat n).val = n := Nat.mod_eq_of_lt h

def ofChar (c : Char) : CodePoint :=
  ⟨c.toNat, by
    have h : c.val.toNat < 0xd800 ∨ 0xdfff < c.val.toNat ∧ c.val.toNat < 0x110000 := c.valid
    have e : c.toNat = c.val.toNat := rfl
    omega⟩

/-- The symbol of a digit below sixteen; letters are in lower case. -/
def ofDigit (d : Nat) : CodePoint :=
  ofNat (if d < 10 then 48 + d else 87 + d)

/-- The value of a digit in base sixteen, of either case. -/
def digit? (c : CodePoint) : Option Nat :=
  if 48 ≤ c.val ∧ c.val ≤ 57 then some (c.val - 48)
  else if 97 ≤ c.val ∧ c.val ≤ 102 then some (c.val - 87)
  else if 65 ≤ c.val ∧ c.val ≤ 70 then some (c.val - 55)
  else none

def isDecimal (c : CodePoint) : Bool := 48 ≤ c.val && c.val ≤ 57

def isLetter (c : CodePoint) : Bool :=
  65 ≤ c.val && c.val ≤ 90 || 97 ≤ c.val && c.val ≤ 122

def isSurrogate (c : CodePoint) : Bool := 0xd800 ≤ c.val && c.val ≤ 0xdfff

/-- Membership in a table of inclusive ranges. -/
def inRanges (ranges : List (Nat × Nat)) (n : Nat) : Bool :=
  ranges.any fun range => range.1 ≤ n && n ≤ range.2

def newline : CodePoint := ofNat 10

def space : CodePoint := ofNat 32

end CodePoint

namespace Text

def ofString (s : String) : Text := s.toList.map CodePoint.ofChar

instance : Coe String Text := ⟨ofString⟩

def joinWith (separator : Text) : List Text → Text
  | [] => []
  | [t] => t
  | t :: u :: ts => t ++ separator ++ joinWith separator (u :: ts)

/-- The digits of a number in a base from two to sixteen, most significant first. -/
def numeral (base n : Nat) : Text :=
  if 2 ≤ base ∧ base ≤ n then
    numeral base (n / base) ++ [CodePoint.ofDigit (n % base)]
  else [CodePoint.ofDigit n]
termination_by n
decreasing_by exact Nat.div_lt_self (by omega) (by omega)

def ofNat (n : Nat) : Text := numeral 10 n

def ofInt (n : Int) : Text :=
  if n < 0 then "-" ++ ofNat n.natAbs else ofNat n.natAbs

/-- The value of a row of digits, each worth zero if it is none. -/
def numeralValue (base : Nat) (digits : Text) : Nat :=
  digits.foldl (fun n c => base * n + c.digit?.getD 0) 0

/-- The numeral of `n` in base sixteen, filled up with zeros to a width. -/
def paddedHex (width n : Nat) : Text :=
  let digits := numeral 16 n
  List.replicate (width - digits.length) (CodePoint.ofDigit 0) ++ digits

/-- Whether the first text starts somewhere inside the second. -/
def isWithin (part : Text) : Text → Bool
  | [] => part.isEmpty
  | c :: rest => part.isPrefixOf (c :: rest) || isWithin part rest

end Text

end ParserCombinators
