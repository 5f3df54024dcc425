import ParserCombinators.Rule.Basic

/-!
Repetition of a rule. A repetition goes on from the rest of the attempt that
failed. A match that consumes nothing would repeat forever, so it ends the
loop and its output is dropped, except while a lower bound is not reached yet.
Each loop is measured by what is left of the input or by the matches that are
still missing.
-/

namespace ParserCombinators.Rule

/-- The loop of `many` with the outputs so far. `onStall` is told how much is
left when a match consumes nothing. -/
def manyFrom (onStall : Nat → Run Unit) (p : Rule) (outputs : List Value) (rest : Value) :
    Run Value := do
  let r ← p rest
  if r.isTrue then
    let next ← r.rest
    next.comparable rest
    if next.size < rest.size then
      let v ← r.output
      manyFrom onStall p (outputs ++ [v]) next
    else
      onStall rest.size
      accept rest (.list outputs)
  else
    let next ← r.rest
    accept next (.list outputs)
termination_by rest.size

/-- As many matches as there are. -/
def many (onStall : Nat → Run Unit) (p : Rule) : Rule := manyFrom onStall p []

/-- The loop of `atLeast` with the outputs so far. -/
def atLeastFrom (count : Nat) (error : Value) (p : Rule) (outputs : List Value)
    (rest : Value) : Run Value := do
  let r ← p rest
  if r.isTrue then
    let next ← r.rest
    next.comparable rest
    if rest.size ≤ next.size ∧ count ≤ outputs.length then accept rest (.list outputs)
    else
      let v ← r.output
      atLeastFrom count error p (outputs ++ [v]) next
  else
    let next ← r.rest
    if outputs.length < count then reject next error else accept next (.list outputs)
termination_by (count - outputs.length, rest.size)
decreasing_by
  simp only [List.length_append, List.length_singleton]
  by_cases h : count ≤ outputs.length
  · have e : count - (outputs.length + 1) = count - outputs.length := by omega
    rw [e]
    exact Prod.Lex.right _ (by omega)
  · exact Prod.Lex.left _ _ (by omega)

/-- As many matches as there are, and at least `count`. -/
def atLeast (count : Nat) (error : Value) (p : Rule) : Rule := atLeastFrom count error p []

/-- The loop of `atMost` with the matches that may still come. -/
def atMostFrom (p : Rule) : Nat → List Value → Value → Run Value
  | 0, outputs, rest => accept rest (.list outputs)
  | allowed + 1, outputs, rest => do
    let r ← p rest
    if r.isTrue then
      let next ← r.rest
      next.comparable rest
      if next.size < rest.size then
        let v ← r.output
        atMostFrom p allowed (outputs ++ [v]) next
      else accept rest (.list outputs)
    else
      let next ← r.rest
      accept next (.list outputs)

/-- As many matches as there are, and at most `count`. -/
def atMost (count : Nat) (p : Rule) : Rule := atMostFrom p count []

/-- The loop of `exactly` with the matches that are missing. -/
def exactlyFrom (error : Value) (p : Rule) : Nat → List Value → Value → Run Value
  | 0, outputs, rest => accept rest (.list outputs)
  | missing + 1, outputs, rest => do
    let r ← p rest
    if r.isTrue then
      let v ← r.output
      let next ← r.rest
      exactlyFrom error p missing (outputs ++ [v]) next
    else
      let next ← r.rest
      reject next error

/-- Exactly `count` matches, even if more could follow. -/
def exactly (count : Nat) (error : Value) (p : Rule) : Rule := exactlyFrom error p count []

end ParserCombinators.Rule
