import ParserCombinators.Rule.Basic

/-!
Rules that look without consuming, and rules that go back to where they began.
-/

namespace ParserCombinators.Rule

/-- Matches where the rule does not, and consumes nothing. -/
def not (error : Value) (p : Rule) : Rule := fun input => do
  let r ← p input
  if r.isTrue then reject input error else accept input .none

/-- Runs a rule and stays where it began. -/
def lookahead (p : Rule) : Rule := fun input => do
  let r ← p input
  if r.isTrue then
    let v ← r.output
    accept input v
  else
    let e ← r.error
    reject input e

/-- Moves a failure back to where the rule began. -/
def backtrack (p : Rule) : Rule := fun input => do
  let r ← p input
  if r.isTrue then pure r
  else
    let e ← r.error
    reject input e

/-- After a failure runs the rule chosen by the error, from where it began itself. -/
def recoverWith (recovery : Value → Run Rule) (p : Rule) : Rule := fun input => do
  let r ← p input
  if r.isTrue then pure r
  else
    let e ← r.error
    let q ← recovery e
    q input

/-- Runs two rules on the same input and consumes nothing. The outcomes are
the output, `none` standing for a failed one. -/
def orBoth (p q : Rule) : Rule := fun input => do
  let r ← p input
  let s ← q input
  if !r.isTrue && !s.isTrue then
    let d ← r.error
    let e ← s.error
    reject input (.tuple [d, e])
  else
    accept input (.tuple [if r.isTrue then r else .none, if s.isTrue then s else .none])

end ParserCombinators.Rule
