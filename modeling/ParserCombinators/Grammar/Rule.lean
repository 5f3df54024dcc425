import ParserCombinators.Callback
import ParserCombinators.Grammar.Substitution
import ParserCombinators.Lexical.Integer
import ParserCombinators.Lexical.Lexeme
import ParserCombinators.Lexical.QuotedString
import ParserCombinators.Rule.Chain

/-!
The rule of a grammar. A grammar is read off its tree; only a recursive parser
and a parser that a function returned are run anew, by `call`, and a limit
bounds how deep such calls nest. A recursive parser runs its body with itself
in the place of its name.
-/

namespace ParserCombinators

namespace Value

/-- What a callable value replies to arguments. -/
def invoke (call : Grammar → Rule) : Value → List Value → Run Value
  | function _ f, arguments => f.apply arguments
  | parser _ g, [input] => call g input
  | _, _ => Run.fail .wrongType

/-- A value in the place of a parser. -/
def toRule (call : Grammar → Rule) : Value → Run Rule
  | function _ f => pure fun input => f.apply [input]
  | parser _ g => pure (call g)
  | v => Run.fail (.notParser v.typeName)

/-- Whether an element passes as the given one, which may also be a test. -/
def accepts (call : Grammar → Rule) (item v : Value) : Run Bool :=
  if item.isCallable then do
    let passed ← item.invoke call [v]
    pure passed.isTrue
  else pure (v.equals item)

/-- The number that a checked count stands for. -/
def count (v : Value) : Nat := (v.toInt?.getD 0).toNat

end Value

namespace Callback

/-- A function of one argument. -/
def map (f : Callback) (v : Value) : Run Value := f.apply [v]

/-- A function that chooses the parser to go on with. -/
def choose (call : Grammar → Rule) (f : Callback) (v : Value) : Run Rule := do
  let w ← f.apply [v]
  w.toRule call

end Callback

/-- The rule of a parser without parts. -/
def Leaf.rule (call : Grammar → Rule) : Leaf → Rule
  | .literal pattern error => Rule.literal pattern error
  | .element item error => Rule.element (item.accepts call) error
  | .anything error => Rule.anything error
  | .endOfInput error => Rule.endOfInput error
  | .always v => Rule.always v
  | .never error => Rule.never error
  | .space => Rule.space
  | .tab => Rule.tab
  | .newline => Rule.newline
  | .carriageReturn => Rule.carriageReturn
  | .whitespace => Rule.whitespace
  | .whitespaces => Rule.whitespaces
  | .integer => Rule.integer
  | .lineComment start => Rule.lineComment start
  | .blockComment start stop => Rule.blockComment start stop
  | .quotedString quotes escape escapes => Rule.quotedString quotes escape escapes
  | .value v => fun input => v.invoke call [input]
  | .take count error => Rule.take count error
  | .reply outcome => fun _ => pure outcome

/-- The log line for a repetition that stopped on a match of nothing. -/
def stallLine (name : Text) (left : Nat) : Text :=
  name ++ " stopped on a zero-width match with " ++ Text.ofNat left ++ " items left"

/-- The rule of a wrapper around a parser `g` whose rule is `p`. -/
def Wrapper.rule (call : Grammar → Rule) (g : Grammar) (p : Rule) : Wrapper → Rule
  | .maybe => p.maybe
  | .many => p.many fun left => Run.log (stallLine (Grammar.wrap .many g).name left)
  | .first => p.first
  | .second => p.second
  | .atLeast n error => p.atLeast n.count error
  | .atMost n => p.atMost n.count
  | .exactly n error => p.exactly n.count error
  | .not error => p.not error
  | .lookahead => p.lookahead
  | .backtrack => p.backtrack
  | .recoverWith recovery => p.recoverWith (recovery.choose call)
  | .map f => p.map f.map
  | .mapError f => p.mapError f.map
  | .fold => p.fold
  | .foldAll => p.foldAll
  | .validate predicate error => p.validate predicate.map error
  | .andThen f => p.andThen (f.choose call)
  | .bind onSuccess onFailure => p.bind (onSuccess.choose call) (onFailure.choose call)
  | .named _ => p
  | .toParser => p
  | .parser _ => p
  | .lexeme => p.lexeme
  | .skipSpaces => p.skipSpaces
  | .skipLineComment start => p.skipLineComment start
  | .skipBlockComment start stop => p.skipBlockComment start stop
  | .charToString => p.charToString
  | .toUppercase => p.toUppercase
  | .toLowercase => p.toLowercase
  | .function _ => p
  | .counted id => fun input => do
    Run.emit (.call id input)
    p input

/-- The rule of two parsers put together. -/
def Joint.rule (call : Grammar → Rule) (p q : Rule) : Joint → Rule
  | .seq => p.seq q
  | .alt => p.alt q
  | .skip => p.skip q
  | .precededBy => p.precededBy q
  | .sepBy => p.sepBy q
  | .sepBy1 error => Rule.sepBy1 error p q
  | .chainLeft => Rule.chainLeft (Value.invoke call) p q
  | .chainRight => Rule.chainRight (Value.invoke call) p q
  | .orBoth => p.orBoth q
  | .apply => Rule.apply (Value.invoke call) p q

namespace Grammar

/-- The body of a recursive parser with the parser in the place of its name. -/
def unfold (x : Text) (body : Grammar) : Grammar := subst x (handle x body) body

/-- The rule of a grammar, calls of grammars that come up on the way left to `call`. -/
def rule (call : Grammar → Rule) : Grammar → Rule
  | leaf l => l.rule call
  | wrap w g => w.rule call g (g.rule call)
  | join j g h => j.rule call (g.rule call) (h.rule call)
  | surroundedBy g left right => (g.rule call).surroundedBy (left.rule call) (right.rule call)
  | ref _ => fun _ => Run.fail .unwired
  | recursive x body => fun input => call (unfold x body) input
  | recursiveEager _ _ _ => fun _ => Run.fail .unwired
  | handle x body => fun input => call (unfold x body) input

/-- Runs a grammar with calls nested at most `depth` deep. -/
def run : Nat → Grammar → Rule
  | 0, g => g.rule fun _ _ => Run.fail .tooDeep
  | depth + 1, g => g.rule (run depth)

/-- How deep calls may nest. -/
def maximalDepth : Nat := 3000

/-- The reply of a grammar to an input. -/
def parse (g : Grammar) : Rule := g.run maximalDepth

/-- The log line for a failed parse that is turned into an error. -/
def failureLine (name : Text) (position : Int) (error : Value) : Text :=
  name ++ " failed at position " ++ Text.ofInt position ++ ": " ++ error.written

/-- The output of a parse; a failure is logged and ends the run with its report. -/
def parseOrReport (g : Grammar) (input : Value) : Run Value := do
  let r ← g.parse input
  if r.isTrue then r.output
  else
    let whole ← input.length
    let rest ← r.rest
    let left ← rest.length
    let e ← r.error
    e.requireWritable
    Run.log (failureLine g.name ((whole : Int) - left) e)
    let report ← r.report input
    Run.fail (.unparsed report)

end Grammar

end ParserCombinators
