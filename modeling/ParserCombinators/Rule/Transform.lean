import ParserCombinators.Rule.Basic
import ParserCombinators.Value.Branch

/-!
Rules whose outputs or errors are changed, and the sequences that keep one
part of a pair.
-/

namespace ParserCombinators.Rule

/-- Replaces the output. -/
def map (f : Value → Run Value) (p : Rule) : Rule := fun input => do
  let r ← p input
  if r.isTrue then
    let rest ← r.rest
    let v ← r.output
    let w ← f v
    accept rest w
  else pure r

/-- Replaces the error. -/
def mapError (f : Value → Run Value) (p : Rule) : Rule := fun input => do
  let r ← p input
  if r.isTrue then pure r
  else
    let rest ← r.rest
    let e ← r.error
    let d ← f e
    reject rest d

/-- Refuses an output that fails a test, at the place where the rule began. -/
def validate (test : Value → Run Value) (error : Value) (p : Rule) : Rule := fun input => do
  let r ← p input
  if r.isTrue then
    let v ← r.output
    let passed ← test v
    if passed.isTrue then pure r else reject input error
  else pure r

/-- Takes the marker off the error. -/
def fold (p : Rule) : Rule := p.mapError Value.foldBranch

/-- Takes all markers off the error. -/
def foldAll (p : Rule) : Rule := p.mapError fun e => pure e.foldAll

def first (p : Rule) : Rule := p.map (Value.item 0)

def second (p : Rule) : Rule := p.map (Value.item 1)

/-- Keeps the output of the first rule and folds the errors of both. -/
def skip (p q : Rule) : Rule := (p.seq q).first.fold

/-- Keeps the output of a rule after another one. -/
def precededBy (p before : Rule) : Rule := (before.seq p).second

/-- The middle of three outputs in sequence. -/
def middle (v : Value) : Run Value := do
  let pair ← v.item 0
  pair.item 1

/-- Keeps the output of a rule between two others. -/
def surroundedBy (p left right : Rule) : Rule := ((left.seq p).seq right).map middle

end ParserCombinators.Rule
