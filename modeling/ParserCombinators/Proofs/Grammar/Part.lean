import Mathlib.Logic.Relation
import ParserCombinators.Proofs.Grammar.Borrow

/-!
The parts of a grammar: every grammar that it runs on its input or on what is
left of it. These are the operands of its operators, the parsers that its
functions choose on the way, and the bodies of its recursions, opened again and
again. What is asked of all parts of a grammar is asked of every node that a
parse can come to, without a bound on how deep the recursions go.
-/

namespace ParserCombinators

/-- All texts. -/
def Inputs.texts : Inputs where
  Mem v := ∃ t, v = .text t
  dropFirst n h := by
    obtain ⟨t, rfl⟩ := h
    exact ⟨t.drop n, rfl⟩

namespace Grammar

/-- One grammar runs another when it is given an input of a set. -/
inductive Uses (I : Inputs) : Grammar → Grammar → Prop
  | parser (identity : Identity) (g : Grammar) : Uses I (.leaf (.value (.parser identity g))) g
  | inner (w : Wrapper) (g : Grammar) : Uses I (.wrap w g) g
  | chosen {w : Wrapper} {g : Grammar} {v : Value} (hv : CanChoose I w g v) :
      Uses I (.wrap w g) (.leaf (.value v))
  | first (j : Joint) (g h : Grammar) : Uses I (.join j g h) g
  | second (j : Joint) (g h : Grammar) : Uses I (.join j g h) h
  | inside (g left right : Grammar) : Uses I (.surroundedBy g left right) g
  | before (g left right : Grammar) : Uses I (.surroundedBy g left right) left
  | after (g left right : Grammar) : Uses I (.surroundedBy g left right) right
  | recursive (x : Text) (body : Grammar) : Uses I (.recursive x body) (unfold x body)
  | handle (x : Text) (body : Grammar) : Uses I (.handle x body) (unfold x body)

/-- The grammar and all its parts have a property. -/
def Throughout (I : Inputs) (P : Grammar → Prop) (g : Grammar) : Prop :=
  ∀ k, Relation.ReflTransGen (Uses I) g k → P k

variable {I : Inputs} {P : Grammar → Prop} {g k : Grammar}

theorem Throughout.self (hg : g.Throughout I P) : P g := hg g .refl

theorem Throughout.part (hg : g.Throughout I P) (hk : Uses I g k) : k.Throughout I P :=
  fun m hm => hg m (.head hk hm)

theorem throughout_of_parts (hP : P g) (h : ∀ k, Uses I g k → k.Throughout I P) :
    g.Throughout I P := by
  intro m hm
  obtain rfl | ⟨k, hk, hm⟩ := hm.cases_head
  · exact hP
  · exact h k hk m hm

/-- A set of grammars with all that they run holds the parts of its members. -/
theorem throughout_of_closed {C : Grammar → Prop} (hC : ∀ g k, C g → Uses I g k → C k)
    (hP : ∀ k, C k → P k) (hg : C g) : g.Throughout I P := by
  intro k hk
  apply hP
  induction hk with
  | refl => exact hg
  | tail _ huses ih => exact hC _ _ ih huses

end Grammar

end ParserCombinators
