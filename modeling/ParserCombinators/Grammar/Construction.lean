import ParserCombinators.Grammar.Rule

/-!
Building a grammar. All arguments of an operator are built first, from left to
right. Then what is put to parsers must be given parsers or callables, counts
must not be negative, and delimiters must have a length. Each recursive parser
reports once that its definition is in place.
-/

namespace ParserCombinators

/-- A value that stands for a parser must be callable. -/
def Grammar.requireCallable (fault : Text → Fault) : Grammar → Run Unit
  | .leaf (.value v) => if v.isCallable then pure () else Run.fail (fault v.typeName)
  | _ => pure ()

def Grammar.requireParser (g : Grammar) : Run Unit := g.requireCallable .notParser

def Value.requireLength (v : Value) : Run Unit := do
  let _ ← v.length
  pure ()

def Value.requireCount (v : Value) : Run Unit := do
  let _ ← v.toCount
  pure ()

/-- The log line for a recursive parser whose definition is in place. -/
def wiredLine (name : Text) : Text := "wired recursive parser " ++ name

/-- What a wrapper asks of the grammar that it is put around. -/
def Wrapper.requireInner (g : Grammar) : Wrapper → Run Unit
  | .function _ => pure ()
  | .counted _ => pure ()
  | .parser _ => g.requireCallable .notCallable
  | _ => g.requireParser

/-- What a wrapper asks of its own arguments. -/
def Wrapper.requireArguments : Wrapper → Run Unit
  | .atLeast n _ => n.requireCount
  | .atMost n => n.requireCount
  | .exactly n _ => n.requireCount
  | .skipLineComment start => start.requireLength
  | .skipBlockComment start stop => do
    stop.requireLength
    start.requireLength
  | _ => pure ()

mutual

def Value.construct : Value → Run Unit
  | .list items => Value.constructAll items
  | .tuple items => Value.constructAll items
  | .branch _ v => v.construct
  | .success rest v => do
    rest.construct
    v.construct
  | .failure rest e => do
    rest.construct
    e.construct
  | .function _ f => f.construct
  | .parser _ g => g.construct
  | .int n => (Value.int n).requireWritable
  | .none => pure ()
  | .bool _ => pure ()
  | .text _ => pure ()
  | .bytes _ => pure ()

def Value.constructAll : List Value → Run Unit
  | [] => pure ()
  | v :: vs => do
    v.construct
    Value.constructAll vs

def Callback.construct : Callback → Run Unit
  | .const v => v.construct
  | .add v => v.construct
  | .modulo v => v.construct
  | .equal v => v.construct
  | .differ v => v.construct
  | .within v => v.construct
  | .compose functions => Callback.constructAll functions
  | .named _ f => f.construct
  | .parser _ g => g.construct
  | .select choice => choice.construct
  | .exactlyOf g error => do
    g.construct
    g.requireParser
    error.construct
  | .atLeastOf g error => do
    g.construct
    g.requireParser
    error.construct
  | .literalOf error => error.construct
  | _ => Pure.pure ()

def Callback.constructAll : List Callback → Run Unit
  | [] => pure ()
  | f :: fs => do
    f.construct
    Callback.constructAll fs

def Choice.construct : Choice → Run Unit
  | .otherwise _ g => g.construct
  | .when key _ g next => do
    key.construct
    g.construct
    next.construct

def Leaf.construct : Leaf → Run Unit
  | .literal pattern error => do
    pattern.construct
    error.construct
    pattern.requireLength
  | .element item error => do
    item.construct
    error.construct
  | .anything error => error.construct
  | .endOfInput error => error.construct
  | .always v => v.construct
  | .never error => error.construct
  | .lineComment start => do
    start.construct
    start.requireLength
  | .blockComment start stop => do
    start.construct
    stop.construct
    stop.requireLength
    start.requireLength
  | .quotedString quotes _ _ => quotes.construct
  | .value v => v.construct
  | .take _ error => error.construct
  | .reply outcome => outcome.construct
  | _ => pure ()

def Wrapper.construct : Wrapper → Run Unit
  | .atLeast n error => do
    n.construct
    error.construct
  | .atMost n => n.construct
  | .exactly n error => do
    n.construct
    error.construct
  | .not error => error.construct
  | .recoverWith f => f.construct
  | .map f => f.construct
  | .mapError f => f.construct
  | .validate f error => do
    f.construct
    error.construct
  | .andThen f => f.construct
  | .bind f g => do
    f.construct
    g.construct
  | .skipLineComment start => start.construct
  | .skipBlockComment start stop => do
    start.construct
    stop.construct
  | _ => pure ()

def Joint.construct : Joint → Run Unit
  | .sepBy1 error => error.construct
  | _ => pure ()

def Grammar.construct : Grammar → Run Unit
  | .leaf l => l.construct
  | .wrap w g => do
    g.construct
    w.construct
    w.requireInner g
    w.requireArguments
  | .join j g h => do
    g.construct
    h.construct
    j.construct
    g.requireParser
    h.requireParser
  | .surroundedBy g left right => do
    g.construct
    left.construct
    right.construct
    g.requireParser
    left.requireParser
    right.requireParser
  | .ref _ => pure ()
  | .recursive _ body => do
    body.construct
    body.requireCallable .notDefinition
    Run.log (wiredLine body.name)
  | .recursiveEager _ input _ => do
    input.construct
    Run.fail .unwired
  | .handle _ _ => pure ()

end

/-- A grammar ready to parse with. -/
def Grammar.build (g : Grammar) : Run Unit := do
  g.construct
  g.requireParser

end ParserCombinators
