import ParserCombinators.Rule.Basic

/-!
Items with separators or operators between them. After the first item each
round matches a separator and an item; the loop ends before a separator that
no item follows, and before a pair that consumes nothing. Operators output
functions, which `invoke` applies to two operands.
-/

namespace ParserCombinators.Rule

/-- The rounds after the first item: what is left, and the outputs in order. -/
def separatedFrom (p separator : Rule) (outputs : List Value) (rest : Value) :
    Run (Value × List Value) := do
  let s ← separator rest
  if s.isTrue then
    let middle ← s.rest
    let r ← p middle
    if r.isTrue then
      let next ← r.rest
      next.comparable rest
      if next.size < rest.size then
        let v ← r.output
        separatedFrom p separator (outputs ++ [v]) next
      else pure (rest, outputs)
    else pure (rest, outputs)
  else pure (rest, outputs)
termination_by rest.size

/-- Items with separators between them, or none at all. -/
def sepBy (p separator : Rule) : Rule := fun input => do
  let r ← p input
  if r.isTrue then
    let next ← r.rest
    let v ← r.output
    let (rest, outputs) ← separatedFrom p separator [v] next
    accept rest (.list outputs)
  else accept input (.list [])

/-- One or more items with separators between them. -/
def sepBy1 (error : Value) (p separator : Rule) : Rule := fun input => do
  let r ← p input
  if r.isTrue then
    let next ← r.rest
    let v ← r.output
    let (rest, outputs) ← separatedFrom p separator [v] next
    accept rest (.list outputs)
  else reject input error

/-- The rounds of a chain that associates to the left, with the result so far. -/
def chainLeftFrom (invoke : Value → List Value → Run Value) (p operator : Rule)
    (result rest : Value) : Run Value := do
  let s ← operator rest
  if s.isTrue then
    let middle ← s.rest
    let r ← p middle
    if r.isTrue then
      let next ← r.rest
      next.comparable rest
      if next.size < rest.size then
        let f ← s.output
        let v ← r.output
        let combined ← invoke f [result, v]
        chainLeftFrom invoke p operator combined next
      else accept rest result
    else accept rest result
  else accept rest result
termination_by rest.size

/-- One or more terms, combined from the left as they are matched. -/
def chainLeft (invoke : Value → List Value → Run Value) (p operator : Rule) : Rule :=
  fun input => do
    let r ← p input
    if r.isTrue then
      let next ← r.rest
      let v ← r.output
      chainLeftFrom invoke p operator v next
    else pure r

/-- The rounds of a chain that associates to the right: what is left, every
term with the operator after it, and the last term. -/
def chainRightFrom (p operator : Rule) (links : List (Value × Value)) (last rest : Value) :
    Run (Value × List (Value × Value) × Value) := do
  let s ← operator rest
  if s.isTrue then
    let middle ← s.rest
    let r ← p middle
    if r.isTrue then
      let next ← r.rest
      next.comparable rest
      if next.size < rest.size then
        let f ← s.output
        let v ← r.output
        chainRightFrom p operator (links ++ [(last, f)]) v next
      else pure (rest, links, last)
    else pure (rest, links, last)
  else pure (rest, links, last)
termination_by rest.size

/-- The terms of a chain combined from the right. -/
def combineRight (invoke : Value → List Value → Run Value) (last : Value) :
    List (Value × Value) → Run Value
  | [] => pure last
  | (term, f) :: links => do
    let result ← combineRight invoke last links
    invoke f [term, result]

/-- One or more terms, combined from the right when all are matched. -/
def chainRight (invoke : Value → List Value → Run Value) (p operator : Rule) : Rule :=
  fun input => do
    let r ← p input
    if r.isTrue then
      let next ← r.rest
      let v ← r.output
      let (rest, links, last) ← chainRightFrom p operator [] v next
      let result ← combineRight invoke last links
      accept rest result
    else pure r

end ParserCombinators.Rule
