import ParserCombinators.Value.Basic

/-!
Equality of values. A Boolean equals the integer that it stands for, sequences
of different kinds are never equal, and functions and parsers are equal only
to themselves.
-/

namespace ParserCombinators

namespace Grammar

/-- The recursion that a grammar merely refers to. -/
def recursion? : Grammar → Option Text
  | ref x => some x
  | handle x _ => some x
  | wrap .toParser g => g.recursion?
  | _ => none

/-- Whether two parsers are one. All references to a recursion are one parser,
and any other parser is known by its identity. -/
def isSame (i : Identity) (g : Grammar) (j : Identity) (h : Grammar) : Bool :=
  match g.recursion?, h.recursion? with
  | some x, some y => x == y
  | none, none => i == j
  | _, _ => false

end Grammar

namespace Value

mutual

def equals : Value → Value → Bool
  | none, none => true
  | bool a, bool b => a == b
  | bool a, int b => a.toInt == b
  | int a, bool b => a == b.toInt
  | int a, int b => a == b
  | text a, text b => a == b
  | bytes a, bytes b => a == b
  | list as, list bs => equalsAll as bs
  | tuple as, tuple bs => equalsAll as bs
  | branch s a, branch t b => s == t && equals a b
  | success r v, success s w => equals r s && equals v w
  | failure r d, failure s e => equals r s && equals d e
  | function i _, function j _ => i == j
  | parser i g, parser j h => Grammar.isSame i g j h
  | _, _ => false

def equalsAll : List Value → List Value → Bool
  | [], [] => true
  | a :: as, b :: bs => equals a b && equalsAll as bs
  | _, _ => false

end

end Value

end ParserCombinators
