import ParserCombinators.Run

/-!
Markers for the two sides of a choice. Folding takes a value out of its
marker, once or all the way down.
-/

namespace ParserCombinators.Value

/-- A value without its marker. -/
def foldBranch : Value → Run Value
  | branch _ v => pure v
  | v => Run.fail (.notBranch v.typeName)

/-- A value without any of the markers around it. -/
def foldAll : Value → Value
  | branch _ v => foldAll v
  | v => v

def side : Value → Run Side
  | branch s _ => pure s
  | _ => Run.fail .noField

/-- The value on the other side; what is not on the left goes there. -/
def swap : Value → Run Value
  | branch .left v => pure (branch .right v)
  | branch _ v => pure (branch .left v)
  | _ => Run.fail .noField

/-- The value mapped by the function for its side. -/
def mapSides (onLeft onRight : Value → Run Value) : Value → Run Value
  | branch .left v => do
    let w ← onLeft v
    pure (branch .left w)
  | branch _ v => do
    let w ← onRight v
    pure (branch .right w)
  | _ => Run.fail .noField

/-- The value mapped only where it is on the given side. -/
def mapSide (side : Side) (f : Value → Run Value) : Value → Run Value
  | branch s v =>
    if s = side then do
      let w ← f v
      pure (branch s w)
    else pure (branch s v)
  | _ => Run.fail .noField

end ParserCombinators.Value
