import ParserCombinators.CharacterSet
import ParserCombinators.Rule.Repeat
import ParserCombinators.Rule.Transform

/-!
Single characters and runs of whitespace in a text. A repeated element always
consumes something, so these repetitions never stall.
-/

namespace ParserCombinators.Rule

/-- A repetition that says nothing when it stalls. -/
def manyQuietly (p : Rule) : Rule := p.many fun _ => pure ()

/-- A repetition whose outputs are joined to one text. -/
def manyJoined (p : Rule) : Rule := p.manyQuietly.map Value.join

/-- One given character. -/
def character (c : CodePoint) (error : Text) : Rule :=
  element (fun v => pure (v.equals (.text [c]))) (.text error)

/-- One character of a set. -/
def characterOf (characters : Text) (error : Text) : Rule :=
  element (Value.isOneOf characters) (.text error)

def space : Rule := character CodePoint.space "Expected a space."

def tab : Rule := character (.ofNat 9) "Expected a tab."

def newline : Rule := character CodePoint.newline "Expected a newline."

def carriageReturn : Rule := character (.ofNat 13) "Expected a carriage return."

def whitespace : Rule := characterOf CharacterSet.whitespaces "Expected whitespace."

/-- Any amount of whitespace, as one text. -/
def whitespaces : Rule := whitespace.manyJoined

end ParserCombinators.Rule
