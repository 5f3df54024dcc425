import ParserCombinators.Run
import ParserCombinators.Value.Equality

/-!
Sequences: texts, byte strings, lists and tuples. A part of a sequence is a
sequence of the same kind; an element of a text is a text of one code point
and an element of a byte string a number. What is asked of a value that is no
sequence ends the run.
-/

namespace ParserCombinators.Value

def isSequence : Value → Bool
  | text _ => true
  | bytes _ => true
  | list _ => true
  | tuple _ => true
  | _ => false

/-- The number of elements of a sequence, zero for every other value. -/
def size : Value → Nat
  | text t => t.length
  | bytes b => b.length
  | list items => items.length
  | tuple items => items.length
  | _ => 0

/-- The first `n` elements. -/
def takeFirst (n : Nat) : Value → Value
  | text t => text (t.take n)
  | bytes b => bytes (b.take n)
  | list items => list (items.take n)
  | tuple items => tuple (items.take n)
  | v => v

/-- All but the first `n` elements. -/
def dropFirst (n : Nat) : Value → Value
  | text t => text (t.drop n)
  | bytes b => bytes (b.drop n)
  | list items => list (items.drop n)
  | tuple items => tuple (items.drop n)
  | v => v

def elements : Value → List Value
  | text t => t.map fun c => text [c]
  | bytes b => b.map fun c => int c.toNat
  | list items => items
  | tuple items => items
  | _ => []

/-- The element at a position from the start. -/
def at? (n : Nat) : Value → Option Value
  | text t => t[n]?.map fun c => text [c]
  | bytes b => b[n]?.map fun c => int c.toNat
  | list items => items[n]?
  | tuple items => items[n]?
  | _ => Option.none

theorem at?_eq_elements (n : Nat) (v : Value) : v.at? n = v.elements[n]? := by
  cases v <;> simp [at?, elements]

theorem size_dropFirst (n : Nat) (v : Value) : (v.dropFirst n).size = v.size - n := by
  cases v <;> simp [dropFirst, size]

theorem size_takeFirst (n : Nat) (v : Value) : (v.takeFirst n).size = min n v.size := by
  cases v <;> simp [takeFirst, size]

theorem isSequence_dropFirst (n : Nat) (v : Value) :
    (v.dropFirst n).isSequence = v.isSequence := by
  cases v <;> rfl

theorem length_elements (v : Value) : v.elements.length = v.size := by
  cases v <;> simp [elements, size]

/-- The length of a sequence. -/
def length (v : Value) : Run Nat :=
  if v.isSequence then pure v.size else Run.fail .wrongType

theorem length_of_isSequence {v : Value} (h : v.isSequence = true) : v.length = pure v.size := by
  rw [length, if_pos h]

/-- Lengths can be compared only if both values are sequences. -/
def comparable (v w : Value) : Run Unit :=
  if v.isSequence && w.isSequence then pure () else Run.fail .wrongType

/-- The point that an index into `size` elements means, a negative one
counting from the end. -/
def fromStart (size : Nat) (index : Int) : Nat :=
  (if index < 0 then index + size else index).toNat

theorem fromStart_natCast (size n : Nat) : fromStart size n = n := by
  rw [fromStart, if_neg (by omega), Int.toNat_natCast]

/-- A sequence cut in two at an index. -/
def cutAt (index : Int) (v : Value) : Run (Value × Value) := do
  let size ← v.length
  let n := fromStart size index
  pure (v.takeFirst n, v.dropFirst n)

/-- The element at an index, a negative one counting from the end. -/
def item (index : Int) (v : Value) : Run Value := do
  let size ← v.length
  if index < -size then Run.fail .outOfRange
  else Run.ofOption .outOfRange (v.at? (fromStart size index))

/-- What going through a value yields; an outcome yields its two parts. -/
def iterate : Value → Run (List Value)
  | success rest v => pure [rest, v]
  | failure rest e => pure [rest, e]
  | v => if v.isSequence then pure v.elements else Run.fail .wrongType

/-- The texts of a list laid end to end. -/
def concat : List Value → Run Text
  | [] => pure []
  | text t :: rest => do
    let u ← concat rest
    pure (t ++ u)
  | _ :: _ => Run.fail .wrongType

def join (v : Value) : Run Value := do
  let items ← v.iterate
  let t ← concat items
  pure (text t)

/-- Whether a value occurs in another: as a part of a text or of a byte
string, or as an equal element. -/
def contains (container v : Value) : Run Bool :=
  match container, v with
  | text t, text part => pure (part.isWithin t)
  | bytes b, bytes part => pure (Text.isWithin (Text.ofBytes part) (Text.ofBytes b))
  | bytes b, v =>
    match v.toInt? with
    | some n =>
      if 0 ≤ n ∧ n < 256 then pure (b.any fun c => c.toNat == n.toNat)
      else Run.fail .badValue
    | Option.none => Run.fail .wrongType
  | list items, v => pure (items.any (equals v))
  | tuple items, v => pure (items.any (equals v))
  | success rest output, v => pure ([rest, output].any (equals v))
  | failure rest error, v => pure ([rest, error].any (equals v))
  | _, _ => Run.fail .wrongType

/-- Whether a value is one of a set of characters. -/
def isOneOf (characters : Text) : Value → Run Bool
  | text [c] => pure (characters.contains c)
  | v => if v.isHashable then pure false else Run.fail .wrongType

/-- The number of different values in a list, all of which must be hashable. -/
def countDistinct (vs : List Value) : Run Nat :=
  if areHashable vs then
    pure (vs.foldl (fun seen v => if seen.any (equals v) then seen else v :: seen) []).length
  else Run.fail .wrongType

end ParserCombinators.Value
