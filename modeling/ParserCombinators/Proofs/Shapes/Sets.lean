import ParserCombinators.Proofs.Grammar.Borrow

/-!
The outputs and the errors of a grammar, read off its tree. Each operator has
its rule: a sequence outputs pairs and marks its errors with their side, an
alternative marks its outputs and pairs its errors, a repetition outputs lists.
The sets are the least ones that the rules allow, so a grammar for which no
rule gives an error has none. A recursive grammar has what its body has with
the grammar itself in the place of its name.
-/

namespace ParserCombinators

open Run

namespace Leaf

/-- The outputs of a leaf. Those of an embedded value are the business of the
function or the parser that it is. -/
def Outputs : Leaf → Value → Prop
  | literal pattern _ => fun v => v.equals pattern = true
  | element item _ => fun v => ∃ depth, (item.accepts (Grammar.callAt depth) v).Returns true
  | anything _ => fun _ => True
  | endOfInput _ => fun v => v = .none
  | always w => fun v => v = w
  | never _ => fun _ => False
  | space => fun v => v = .text [CodePoint.space]
  | tab => fun v => v = .text [.ofNat 9]
  | newline => fun v => v = .text [CodePoint.newline]
  | carriageReturn => fun v => v = .text [.ofNat 13]
  | whitespace => fun v => ∃ c ∈ CharacterSet.whitespaces, v = .text [c]
  | whitespaces => Value.IsText
  | integer => Value.IsInteger
  | lineComment _ => Value.IsText
  | blockComment _ _ => Value.IsText
  | quotedString _ _ _ => Value.IsText
  | value _ => fun _ => False
  | take _ _ => fun _ => True
  | reply outcome => fun v => ∃ rest, outcome = .success rest v

def Errors : Leaf → Value → Prop
  | literal _ error => fun e => e = error
  | element _ error => fun e => e = error
  | anything error => fun e => e = error
  | endOfInput error => fun e => e = error
  | always _ => fun _ => False
  | never error => fun e => e = error
  | space => fun e => e = .text "Expected a space."
  | tab => fun e => e = .text "Expected a tab."
  | newline => fun e => e = .text "Expected a newline."
  | carriageReturn => fun e => e = .text "Expected a carriage return."
  | whitespace => fun e => e = .text "Expected whitespace."
  | whitespaces => fun _ => False
  | integer => fun e => e = .text "Expected an integer."
  | lineComment start => fun e => e = Rule.expected start
  | blockComment start stop => fun e => e = Rule.expected start ∨ e = Run.Logic.unclosed stop
  | quotedString _ _ _ => Value.IsText
  | value _ => fun _ => False
  | take _ error => fun e => e = error
  | reply outcome => fun e => ∃ rest, outcome = .failure rest e

end Leaf

namespace Wrapper

/-- Whether the outputs of the parser are outputs of the wrapped one. -/
def keepsOutputs : Wrapper → Bool
  | maybe => true
  | lookahead => true
  | backtrack => true
  | recoverWith _ => true
  | mapError _ => true
  | fold => true
  | foldAll => true
  | named _ => true
  | toParser => true
  | parser _ => true
  | lexeme => true
  | skipSpaces => true
  | skipLineComment _ => true
  | skipBlockComment _ _ => true
  | function _ => true
  | counted _ => true
  | _ => false

/-- Whether the errors of the parser are errors of the wrapped one. -/
def keepsErrors : Wrapper → Bool
  | first => true
  | second => true
  | lookahead => true
  | backtrack => true
  | map _ => true
  | validate _ _ => true
  | andThen _ => true
  | named _ => true
  | toParser => true
  | parser _ => true
  | lexeme => true
  | skipSpaces => true
  | skipLineComment _ => true
  | skipBlockComment _ _ => true
  | charToString => true
  | toUppercase => true
  | toLowercase => true
  | function _ => true
  | counted _ => true
  | _ => false

/-- Whether `none` stands for a match of nothing. -/
def mayOutputNone : Wrapper → Bool
  | maybe => true
  | not _ => true
  | _ => false

/-- How many outputs a repetition may have. -/
def Lists : Wrapper → Nat → Prop
  | many => fun _ => True
  | atLeast n _ => fun length => n.count ≤ length
  | atMost n => fun length => length ≤ n.count
  | exactly n _ => fun length => length = n.count
  | _ => fun _ => False

/-- The change of every output. -/
def outputMap? : Wrapper → Option (Value → Run Value)
  | first => some (Value.item 0)
  | second => some (Value.item 1)
  | map f => some f.map
  | charToString => some Value.toText
  | toUppercase => some Value.toUpper
  | toLowercase => some Value.toLower
  | _ => none

/-- The change of every error. -/
def errorMap? : Wrapper → Option (Value → Run Value)
  | mapError f => some f.map
  | fold => some Value.foldBranch
  | foldAll => some fun e => pure e.foldAll
  | _ => none

/-- The error that a wrapper is given. -/
def error? : Wrapper → Option Value
  | atLeast _ error => some error
  | exactly _ error => some error
  | not error => some error
  | validate _ error => some error
  | _ => none

end Wrapper

namespace Grammar

mutual

/-- The values that a grammar may output. -/
inductive HasOutput : Grammar → Value → Prop
  | leaf (hv : l.Outputs v) : HasOutput (.leaf l) v
  | function {input rest : Value} (hv : (f.apply [input]).Returns (.success rest v)) :
      HasOutput (.leaf (.value (.function identity f))) v
  | parser (hv : HasOutput g v) : HasOutput (.leaf (.value (.parser i g))) v
  | kept (hw : w.keepsOutputs = true) (hv : HasOutput g v) : HasOutput (.wrap w g) v
  | absent (hw : w.mayOutputNone = true) : HasOutput (.wrap w g) .none
  | listed {vs : List Value} (hw : w.Lists vs.length) (hvs : ∀ v ∈ vs, HasOutput g v) :
      HasOutput (.wrap w g) (.list vs)
  | mapped {change : Value → Run Value} (hw : w.outputMap? = some change) (hv : HasOutput g v)
      (hu : (change v).Returns u) : HasOutput (.wrap w g) u
  | validated (hv : HasOutput g v) (ha : (f.map v).Returns a) (hpass : a.isTrue = true) :
      HasOutput (.wrap (.validate f e) g) v
  | recovered (he : HasError g e) (ha : (f.apply [e]).Returns a)
      (hv : HasOutput (.leaf (.value a)) v) : HasOutput (.wrap (.recoverWith f) g) v
  | andThen (hv : HasOutput g v) (ha : (f.apply [v]).Returns a)
      (hu : HasOutput (.leaf (.value a)) u) : HasOutput (.wrap (.andThen f) g) u
  | onSuccess (hv : HasOutput g v) (ha : (f.apply [v]).Returns a)
      (hu : HasOutput (.leaf (.value a)) u) : HasOutput (.wrap (.bind f f') g) u
  | onFailure (he : HasError g e) (ha : (f'.apply [e]).Returns a)
      (hu : HasOutput (.leaf (.value a)) u) : HasOutput (.wrap (.bind f f') g) u
  | pair (hu : HasOutput g u) (hv : HasOutput h v) : HasOutput (.join .seq g h) (.tuple [u, v])
  | left (hv : HasOutput g v) : HasOutput (.join .alt g h) (.branch .left v)
  | right (hv : HasOutput h v) : HasOutput (.join .alt g h) (.branch .right v)
  | skip (hv : HasOutput g v) : HasOutput (.join .skip g h) v
  | precededBy (hv : HasOutput g v) : HasOutput (.join .precededBy g h) v
  | sepBy {vs : List Value} (hvs : ∀ v ∈ vs, HasOutput g v) :
      HasOutput (.join .sepBy g h) (.list vs)
  | sepBy1 {vs : List Value} (hone : 1 ≤ vs.length) (hvs : ∀ v ∈ vs, HasOutput g v) :
      HasOutput (.join (.sepBy1 e) g h) (.list vs)
  | leftTerm (hv : HasOutput g v) : HasOutput (.join .chainLeft g h) v
  | chainLeft (ha : HasOutput (.join .chainLeft g h) a)
      (hf : HasOutput h (.function identity f)) (hv : HasOutput g v)
      (hu : (f.apply [a, v]).Returns u) : HasOutput (.join .chainLeft g h) u
  | rightTerm (hv : HasOutput g v) : HasOutput (.join .chainRight g h) v
  | chainRight (hv : HasOutput g v) (hf : HasOutput h (.function identity f))
      (ha : HasOutput (.join .chainRight g h) a) (hu : (f.apply [v, a]).Returns u) :
      HasOutput (.join .chainRight g h) u
  | both (hu : HasOutput g u) (hv : HasOutput h v) :
      HasOutput (.join .orBoth g h) (.tuple [.success a u, .success b v])
  | onlyLeft (hu : HasOutput g u) : HasOutput (.join .orBoth g h) (.tuple [.success a u, .none])
  | onlyRight (hv : HasOutput h v) : HasOutput (.join .orBoth g h) (.tuple [.none, .success b v])
  | apply {depth : Nat} {arguments : List Value} (ha : HasOutput g a) (hv : HasOutput h v)
      (harguments : v.iterate.Returns arguments)
      (hu : (a.invoke (callAt depth) arguments).Returns u) : HasOutput (.join .apply g h) u
  | surroundedBy (hv : HasOutput g v) : HasOutput (.surroundedBy g left right) v
  | recursive (hv : HasOutput (unfold x body) v) : HasOutput (.recursive x body) v
  | handle (hv : HasOutput (unfold x body) v) : HasOutput (.handle x body) v

/-- The values that a grammar may fail with. -/
inductive HasError : Grammar → Value → Prop
  | leaf (he : l.Errors e) : HasError (.leaf l) e
  | function {input rest : Value} (he : (f.apply [input]).Returns (.failure rest e)) :
      HasError (.leaf (.value (.function identity f))) e
  | parser (he : HasError g e) : HasError (.leaf (.value (.parser i g))) e
  | kept (hw : w.keepsErrors = true) (he : HasError g e) : HasError (.wrap w g) e
  | given (hw : w.error? = some e) : HasError (.wrap w g) e
  | mapped {change : Value → Run Value} (hw : w.errorMap? = some change) (he : HasError g e)
      (hd : (change e).Returns d) : HasError (.wrap w g) d
  | recovered (he : HasError g e) (ha : (f.apply [e]).Returns a)
      (hd : HasError (.leaf (.value a)) d) : HasError (.wrap (.recoverWith f) g) d
  | andThen (hv : HasOutput g v) (ha : (f.apply [v]).Returns a)
      (hd : HasError (.leaf (.value a)) d) : HasError (.wrap (.andThen f) g) d
  | onSuccess (hv : HasOutput g v) (ha : (f.apply [v]).Returns a)
      (hd : HasError (.leaf (.value a)) d) : HasError (.wrap (.bind f f') g) d
  | onFailure (he : HasError g e) (ha : (f'.apply [e]).Returns a)
      (hd : HasError (.leaf (.value a)) d) : HasError (.wrap (.bind f f') g) d
  | first (he : HasError g e) : HasError (.join .seq g h) (.branch .left e)
  | second (he : HasError h e) : HasError (.join .seq g h) (.branch .right e)
  | alt (hd : HasError g d) (he : HasError h e) : HasError (.join .alt g h) (.tuple [d, e])
  | skipFirst (he : HasError g e) : HasError (.join .skip g h) e
  | skipSecond (he : HasError h e) : HasError (.join .skip g h) e
  | before (he : HasError h e) : HasError (.join .precededBy g h) (.branch .left e)
  | after (he : HasError g e) : HasError (.join .precededBy g h) (.branch .right e)
  | sepBy1 : HasError (.join (.sepBy1 e) g h) e
  | chainLeft (he : HasError g e) : HasError (.join .chainLeft g h) e
  | chainRight (he : HasError g e) : HasError (.join .chainRight g h) e
  | orBoth (hd : HasError g d) (he : HasError h e) : HasError (.join .orBoth g h) (.tuple [d, e])
  | applyFirst (he : HasError g e) : HasError (.join .apply g h) e
  | applySecond (he : HasError h e) : HasError (.join .apply g h) e
  | opening (he : HasError left e) :
      HasError (.surroundedBy g left right) (.branch .left (.branch .left e))
  | middle (he : HasError g e) :
      HasError (.surroundedBy g left right) (.branch .left (.branch .right e))
  | closing (he : HasError right e) : HasError (.surroundedBy g left right) (.branch .right e)
  | recursive (he : HasError (unfold x body) e) : HasError (.recursive x body) e
  | handle (he : HasError (unfold x body) e) : HasError (.handle x body) e

end

/-- The outcomes of a grammar by its sets. -/
def shape {ι : Type} (g : Grammar) : Shape ι := .of g.HasOutput g.HasError

end Grammar

end ParserCombinators
