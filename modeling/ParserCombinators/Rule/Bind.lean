import ParserCombinators.Rule.Basic

/-!
Rules that depend on what was parsed before them. A function that is itself a
value is applied by `invoke`, which knows what can be called.
-/

namespace ParserCombinators.Rule

/-- Goes on with the rule chosen by the output. -/
def andThen (f : Value → Run Rule) (p : Rule) : Rule := fun input => do
  let r ← p input
  if r.isTrue then
    let v ← r.output
    let q ← f v
    let rest ← r.rest
    q rest
  else pure r

/-- Goes on with the rule chosen by the output or by the error, on what is left. -/
def bind (onSuccess onFailure : Value → Run Rule) (p : Rule) : Rule := fun input => do
  let r ← p input
  if r.isTrue then
    let v ← r.output
    let q ← onSuccess v
    let rest ← r.rest
    q rest
  else
    let e ← r.error
    let q ← onFailure e
    let rest ← r.rest
    q rest

/-- Applies the function that one rule outputs to the arguments that another
outputs. -/
def apply (invoke : Value → List Value → Run Value) (p q : Rule) : Rule := fun input => do
  let r ← p input
  if r.isTrue then
    let middle ← r.rest
    let s ← q middle
    if s.isTrue then
      let rest ← s.rest
      let f ← r.output
      let v ← s.output
      let arguments ← v.iterate
      let w ← invoke f arguments
      accept rest w
    else pure s
  else pure r

end ParserCombinators.Rule
