import ParserCombinators.Outcome
import ParserCombinators.Value.Branch
import ParserCombinators.Value.Convert

/-!
Applying a function to arguments. A function that returns a parser returns it
as a value. A parser that is made anew is checked like any construction, and
what goes into its name must be writable.
-/

namespace ParserCombinators

/-- The parser for a value in a table, as a value. -/
def Choice.find (v : Value) : Choice → Value
  | .otherwise i g => g.toValue i
  | .when key i g next => if key.equals v then g.toValue i else next.find v

/-- A new parser as a value. -/
def Grammar.make (g : Grammar) : Run Value := do
  let identity ← Run.newIdentity
  pure (.parser identity g)

/-- The side of a marker and its value, in words. -/
def Value.sideAndValue (v : Value) : Run Value := do
  let side ← v.side
  let w ← v.output
  w.requireWritable
  pure (.text (side.name ++ ": " ++ w.display))

mutual

/-- The result of a function. A number of arguments that it does not take is a fault. -/
def Callback.apply : Callback → List Value → Run Value
  | .named _ f, arguments => f.apply arguments
  | .pack, arguments => pure (.tuple arguments)
  | .plus, [v, w] => v.plus w
  | .minus, [v, w] => v.arithmetic (· - ·) w
  | .times, [v, w] => v.arithmetic (· * ·) w
  | .identity, [v] => pure v
  | .duplicate, [v] => pure (.tuple [v, v])
  | .display, [v] => v.toText
  | .integer, [v] => v.toInteger
  | .join, [v] => v.join
  | .length, [v] => do
    let n ← v.length
    pure (.int n)
  | .negate, [v] => pure (.bool !v.isTrue)
  | .left, [v] => pure (.branch .left v)
  | .right, [v] => pure (.branch .right v)
  | .foldBranch, [v] => v.foldBranch
  | .foldAll, [v] => pure v.foldAll
  | .sideAndValue, [v] => v.sideAndValue
  | .isDigits, [v] => pure (.bool (v.isAll CodePoint.isDecimal))
  | .isLetters, [v] => pure (.bool (v.isAll CodePoint.isLetter))
  | .isInteger, [v] => pure (.bool v.isInteger)
  | .const w, [_] => pure w
  | .get path, [v] => v.follow path
  | .add w, [v] => v.add w
  | .modulo w, [v] => v.modulo w
  | .equal w, [v] => pure (.bool (v.equals w))
  | .differ w, [v] => pure (.bool !v.equals w)
  | .within w, [v] => do
    let found ← w.contains v
    pure (.bool found)
  | .raise message, [_] => Run.fail (.raised message)
  | .compose functions, [v] => Callback.applyAll functions v
  | .parser i g, [_] => pure (g.toValue i)
  | .select choice, [v] => pure (choice.find v)
  | .exactlyOf g error, [v] => do
    let _ ← v.toCount
    v.requireWritable
    Grammar.make (.wrap (.exactly v error) g)
  | .atLeastOf g error, [v] => do
    let _ ← v.toCount
    v.requireWritable
    Grammar.make (.wrap (.atLeast v error) g)
  | .literalOf error, [v] => do
    let _ ← v.length
    v.requireWritable
    Grammar.make (.leaf (.literal v error))
  | .pureOf, [v] => do
    v.requireWritable
    Grammar.make (.leaf (.always v))
  | .failOf, [v] => do
    v.requireWritable
    Grammar.make (.leaf (.never v))
  | _, _ => Run.fail .wrongType

/-- The results of functions one after the other. -/
def Callback.applyAll : List Callback → Value → Run Value
  | [], v => pure v
  | f :: functions, v => do
    let w ← f.apply [v]
    Callback.applyAll functions w

end

end ParserCombinators
