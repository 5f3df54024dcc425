import ParserCombinators.Grammar.Basic

/-!
Putting a grammar in the place of a name, also inside the functions and the
values of a grammar. A binder of the same name hides the name in its body.
-/

namespace ParserCombinators

variable (x : Text) (s : Grammar)

mutual

def Value.subst : Value → Value
  | .list items => .list (Value.substAll items)
  | .tuple items => .tuple (Value.substAll items)
  | .branch side v => .branch side v.subst
  | .success rest v => .success rest.subst v.subst
  | .failure rest e => .failure rest.subst e.subst
  | .function identity f => .function identity f.subst
  | .parser identity g => .parser identity g.subst
  | .none => .none
  | .bool b => .bool b
  | .int n => .int n
  | .text t => .text t
  | .bytes b => .bytes b

def Value.substAll : List Value → List Value
  | [] => []
  | v :: vs => v.subst :: Value.substAll vs

def Callback.subst : Callback → Callback
  | .const v => .const v.subst
  | .add v => .add v.subst
  | .modulo v => .modulo v.subst
  | .equal v => .equal v.subst
  | .differ v => .differ v.subst
  | .within v => .within v.subst
  | .compose functions => .compose (Callback.substAll functions)
  | .named name f => .named name f.subst
  | .parser i g => .parser i g.subst
  | .select choice => .select choice.subst
  | .exactlyOf g error => .exactlyOf g.subst error.subst
  | .atLeastOf g error => .atLeastOf g.subst error.subst
  | .literalOf error => .literalOf error.subst
  | f => f

def Callback.substAll : List Callback → List Callback
  | [] => []
  | f :: fs => f.subst :: Callback.substAll fs

def Choice.subst : Choice → Choice
  | .otherwise identity g => .otherwise identity g.subst
  | .when key identity g next => .when key.subst identity g.subst next.subst

def Leaf.subst : Leaf → Leaf
  | .literal pattern error => .literal pattern.subst error.subst
  | .element item error => .element item.subst error.subst
  | .anything error => .anything error.subst
  | .endOfInput error => .endOfInput error.subst
  | .always v => .always v.subst
  | .never error => .never error.subst
  | .lineComment start => .lineComment start.subst
  | .blockComment start stop => .blockComment start.subst stop.subst
  | .quotedString quotes escape escapes => .quotedString quotes.subst escape escapes
  | .value v => .value v.subst
  | .take count error => .take count error.subst
  | .reply outcome => .reply outcome.subst
  | l => l

def Wrapper.subst : Wrapper → Wrapper
  | .atLeast count error => .atLeast count.subst error.subst
  | .atMost count => .atMost count.subst
  | .exactly count error => .exactly count.subst error.subst
  | .not error => .not error.subst
  | .recoverWith f => .recoverWith f.subst
  | .map f => .map f.subst
  | .mapError f => .mapError f.subst
  | .validate f error => .validate f.subst error.subst
  | .andThen f => .andThen f.subst
  | .bind f g => .bind f.subst g.subst
  | .skipLineComment start => .skipLineComment start.subst
  | .skipBlockComment start stop => .skipBlockComment start.subst stop.subst
  | w => w

def Joint.subst : Joint → Joint
  | .sepBy1 error => .sepBy1 error.subst
  | j => j

def Grammar.subst : Grammar → Grammar
  | .leaf l => .leaf l.subst
  | .wrap w g => .wrap w.subst g.subst
  | .join j g h => .join j.subst g.subst h.subst
  | .surroundedBy g left right => .surroundedBy g.subst left.subst right.subst
  | .ref y => if y = x then s else .ref y
  | .recursive y body => .recursive y (if y = x then body else body.subst)
  | .recursiveEager y input body =>
    .recursiveEager y input.subst (if y = x then body else body.subst)
  | .handle y body => .handle y (if y = x then body else body.subst)

end

end ParserCombinators
