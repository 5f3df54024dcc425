import ParserCombinators.Grammar.Basic

/-!
Truth and kinds of values, and which of them can be looked up in a set.
-/

namespace ParserCombinators

namespace Side

def name : Side → Text
  | left => "left"
  | right => "right"
  | bare => ""

def typeName : Side → Text
  | left => "Left"
  | right => "Right"
  | bare => "Either"

end Side

namespace Grammar

/-- Whether a grammar is a parser already, rather than a plain function or value. -/
def isParser : Grammar → Bool
  | leaf (.value _) => false
  | leaf (.take _ _) => false
  | leaf (.reply _) => false
  | wrap (.function _) _ => false
  | wrap (.counted _) _ => false
  | _ => true

/-- The value that a grammar stands for: an embedded value is just itself. -/
def toValue (identity : Nat) : Grammar → Value
  | leaf (.value v) => v
  | g => .parser (.given identity) g

end Grammar

namespace Value

def isTrue : Value → Bool
  | none => false
  | bool b => b
  | int n => n != 0
  | text t => !t.isEmpty
  | bytes b => !b.isEmpty
  | list items => !items.isEmpty
  | tuple items => !items.isEmpty
  | failure _ _ => false
  | _ => true

/-- The integer that a value counts as. -/
def toInt? : Value → Option Int
  | bool b => some b.toInt
  | int n => some n
  | _ => Option.none

def isCallable : Value → Bool
  | function _ _ => true
  | parser _ _ => true
  | _ => false

mutual

/-- Whether a value can be looked up in a set. -/
def isHashable : Value → Bool
  | list _ => false
  | tuple items => areHashable items
  | branch _ v => isHashable v
  | success _ _ => false
  | failure _ _ => false
  | _ => true

def areHashable : List Value → Bool
  | [] => true
  | v :: vs => isHashable v && areHashable vs

end

end Value

mutual

def Value.typeName : Value → Text
  | .none => "NoneType"
  | .bool _ => "bool"
  | .int _ => "int"
  | .text _ => "str"
  | .bytes _ => "bytes"
  | .list _ => "list"
  | .tuple _ => "tuple"
  | .branch side _ => side.typeName
  | .success _ _ => "Success"
  | .failure _ _ => "Failure"
  | .function _ _ => "Fn"
  | .parser _ g => g.typeName

def Leaf.typeName : Leaf → Text
  | .value v => v.typeName
  | .take _ _ => "function"
  | .reply _ => "function"
  | _ => "Parser"

def Grammar.typeName : Grammar → Text
  | .leaf l => l.typeName
  | .wrap (.function (some _)) _ => "function"
  | .wrap (.function none) _ => "PlainCallable"
  | .wrap (.counted _) _ => "CountingParser"
  | .wrap .toParser g => if g.isParser then g.typeName else "Parser"
  | .ref _ => "RecursionHandle"
  | .handle _ _ => "RecursionHandle"
  | _ => "Parser"

end

end ParserCombinators
