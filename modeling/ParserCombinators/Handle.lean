import ParserCombinators.Grammar.Construction

/-!
A recursion handle by itself: a parser that gets its definition later, and
only once. Until then calling it is a fault; afterwards it behaves as its
definition, in which its name stands for itself.
-/

namespace ParserCombinators

structure Handle where
  name : Text
  target : Option Grammar

namespace Handle

def fresh (name : Text) : Handle := ⟨name, none⟩

/-- The parser that the handle is at present. -/
def grammar (h : Handle) : Grammar :=
  match h.target with
  | none => .ref h.name
  | some body => .handle h.name body

/-- A grammar with the handle in the place of its name. -/
def within (h : Handle) (g : Grammar) : Grammar := Grammar.subst h.name h.grammar g

/-- A value with the handle in the place of its name. -/
def fill (h : Handle) (v : Value) : Value := Value.subst h.name h.grammar v

/-- The handle with a grammar as its definition. -/
def wire (h : Handle) (g : Grammar) : Run Handle := do
  g.build
  match h.target with
  | none => pure { h with target := some g }
  | some _ => Run.fail .alreadyWired

def parse (h : Handle) : Rule := h.grammar.parse

/-- A parse with a grammar that may use the handle. The grammar is built before
the input. -/
def use (h : Handle) (g : Grammar) : Rule := fun input => do
  g.build
  input.construct
  (h.within g).parse (h.fill input)

end Handle

end ParserCombinators
