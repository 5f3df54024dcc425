import ParserCombinators.Outcome

/-!
What a parser does: it takes an input and replies, usually with an outcome.
This module holds the rules that look at the input themselves and the two ways
to put rules together, one after the other and one instead of the other. Any
other value counts as a reply too: its truth decides whether there was a
match, and reading a part that it lacks is a fault.
-/

namespace ParserCombinators

abbrev Rule := Value → Run Value

namespace Rule

/-- Matches a given beginning of the input. -/
def literal (pattern error : Value) : Rule := fun input => do
  let (start, rest) ← input.cutAt pattern.size
  if start.equals pattern then accept rest start else reject input error

/-- Matches one element that passes a test. -/
def element (test : Value → Run Bool) (error : Value) : Rule := fun input => do
  let size ← input.length
  if size = 0 then reject input error
  else
    let head ← input.item 0
    let passed ← test head
    if passed then accept (input.dropFirst 1) head else reject input error

def anything (error : Value) : Rule := element (fun _ => pure true) error

def endOfInput (error : Value) : Rule := fun input => do
  let size ← input.length
  if size = 0 then accept input .none else reject input error

def always (output : Value) : Rule := fun input => accept input output

def never (error : Value) : Rule := fun input => reject input error

/-- Cuts off `count` items, a negative count meaning all but so many. -/
def take (count : Int) (error : Value) : Rule := fun input => do
  let size ← input.length
  if count ≤ size then
    let (start, rest) ← input.cutAt count
    accept rest start
  else reject input error

/-- One rule, then another on what is left. -/
def seq (p q : Rule) : Rule := fun input => do
  let r ← p input
  if r.isTrue then
    let middle ← r.rest
    let s ← q middle
    if s.isTrue then
      let rest ← s.rest
      let v ← r.output
      let w ← s.output
      accept rest (.tuple [v, w])
    else
      let rest ← s.rest
      let e ← s.error
      reject rest (.branch .right e)
  else
    let rest ← r.rest
    let e ← r.error
    reject rest (.branch .left e)

/-- One rule, or else another on the same input. -/
def alt (p q : Rule) : Rule := fun input => do
  let r ← p input
  if r.isTrue then
    let rest ← r.rest
    let v ← r.output
    accept rest (.branch .left v)
  else
    let s ← q input
    if s.isTrue then
      let rest ← s.rest
      let v ← s.output
      accept rest (.branch .right v)
    else
      let d ← r.error
      let e ← s.error
      reject input (.tuple [d, e])

def maybe (p : Rule) : Rule := fun input => do
  let r ← p input
  if r.isTrue then pure r else accept input .none

end Rule

end ParserCombinators
