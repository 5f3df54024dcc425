import ParserCombinators.Text.Case
import ParserCombinators.Text.Integer
import ParserCombinators.Value.Sequence

/-!
Conversions between kinds of values, and arithmetic on them. Booleans count as
integers throughout. Arithmetic has no bound, but a value that holds an integer
with too many digits cannot be written.
-/

namespace ParserCombinators.Value

mutual

/-- Whether no integer in a value has too many digits to be written. What a
function or a parser is made of is not written. -/
def isWritable : Value → Bool
  | int n => n.natAbs < Text.tooLong
  | list items => areWritable items
  | tuple items => areWritable items
  | branch _ v => isWritable v
  | success rest v => isWritable rest && isWritable v
  | failure rest e => isWritable rest && isWritable e
  | _ => true

def areWritable : List Value → Bool
  | [] => true
  | v :: vs => isWritable v && areWritable vs

end

/-- A value must be writable to become part of a text or of a name. -/
def requireWritable (v : Value) : Run Unit :=
  if v.isWritable then pure () else Run.fail .badValue

/-- The text of a value. -/
def toText (v : Value) : Run Value := do
  v.requireWritable
  pure (text v.display)

def readInteger (t : Text) : Run Value := do
  let n ← Run.ofOption .badValue t.integer?
  pure (int n)

/-- The integer that a number is or that a text spells. -/
def toInteger : Value → Run Value
  | text t => readInteger t
  | bytes b =>
    if b.all (· < 128) then readInteger (Text.ofBytes b) else Run.fail .badValue
  | v => do
    let n ← Run.ofOption .wrongType v.toInt?
    pure (int n)

/-- A number of repetitions. -/
def toCount (v : Value) : Run Nat := do
  let n ← Run.ofOption .wrongType v.toInt?
  if n < 0 then Run.fail .negativeCount else pure n.toNat

def toUpper : Value → Run Value
  | text t => pure (text t.toUpper)
  | _ => Run.fail .wrongType

def toLower : Value → Run Value
  | text t => pure (text t.toLower)
  | _ => Run.fail .wrongType

/-- Whether a value is a text that is not empty and all of one class. -/
def isAll (class? : CodePoint → Bool) : Value → Bool
  | text t => !t.isEmpty && t.all class?
  | _ => false

def isInteger (v : Value) : Bool := v.toInt?.isSome

/-- An operation on two integers. -/
def arithmetic (f : Int → Int → Int) (v w : Value) : Run Value := do
  let a ← Run.ofOption .wrongType v.toInt?
  let b ← Run.ofOption .wrongType w.toInt?
  pure (int (f a b))

/-- The sum of integers or two texts end to end. -/
def plus : Value → Value → Run Value
  | text t, text u => pure (text (t ++ u))
  | v, w => arithmetic (· + ·) v w

/-- The sum of integers, or two texts, lists or tuples end to end. -/
def add : Value → Value → Run Value
  | list vs, list ws => pure (list (vs ++ ws))
  | tuple vs, tuple ws => pure (tuple (vs ++ ws))
  | v, w => plus v w

/-- The remainder of a division whose quotient is rounded down. -/
def modulo (v w : Value) : Run Value := do
  let a ← Run.ofOption .wrongType v.toInt?
  let b ← Run.ofOption .wrongType w.toInt?
  if b = 0 then Run.fail .divisionByZero else pure (int (a.fmod b))

/-- The element that a path of indices leads to. -/
def follow : List Int → Value → Run Value
  | [], v => pure v
  | index :: path, v => do
    let w ← v.item index
    follow path w

end ParserCombinators.Value
