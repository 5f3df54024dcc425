import ParserCombinators.Proofs.Grammar.Node

/-!
What a grammar can output and fail with, which values it can go on with as
parsers, and which plain functions it runs as parsers. The functions are
borrowed: nothing in the grammar says how they reply.
-/

namespace ParserCombinators

open Run

namespace Grammar

/-- The rule behind the calls of a grammar that is run at a depth. -/
def callAt : Nat → Grammar → Rule
  | 0 => fun _ _ => Run.fail .tooDeep
  | depth + 1 => run depth

theorem run_eq (depth : Nat) (g : Grammar) : g.run depth = g.rule (callAt depth) := by
  cases depth <;> rfl

theorem run_leaf (depth : Nat) (l : Leaf) : (leaf l).run depth = l.rule (callAt depth) :=
  run_eq depth (leaf l)

theorem run_wrap (depth : Nat) (w : Wrapper) (g : Grammar) :
    (wrap w g).run depth = w.rule (callAt depth) g (g.run depth) := by
  rw [run_eq, run_eq]
  rfl

theorem run_join (depth : Nat) (j : Joint) (g h : Grammar) :
    (join j g h).run depth = j.rule (callAt depth) (g.run depth) (h.run depth) := by
  rw [run_eq, run_eq, run_eq]
  rfl

theorem run_surroundedBy (depth : Nat) (g left right : Grammar) :
    (surroundedBy g left right).run depth =
      (g.run depth).surroundedBy (left.run depth) (right.run depth) := by
  rw [run_eq, run_eq, run_eq, run_eq]
  rfl

/-- A recursive parser runs as its handle does. -/
theorem run_recursive (depth : Nat) (x : Text) (body : Grammar) :
    (recursive x body).run depth = (handle x body).run depth := by
  rw [run_eq, run_eq]
  rfl

/-- A value that is read from a reply of the grammar as its output. -/
def CanOutput (I : Inputs) (g : Grammar) (v : Value) : Prop :=
  ∃ depth input r, I.Mem input ∧ (g.run depth input).Returns r ∧ r.output.Returns v

/-- A value that is read from a reply of the grammar as its error. -/
def CanFail (I : Inputs) (g : Grammar) (e : Value) : Prop :=
  ∃ depth input r, I.Mem input ∧ (g.run depth input).Returns r ∧ r.error.Returns e

/-- What a wrapper around a grammar can go on with as a parser. -/
inductive CanChoose (I : Inputs) : Wrapper → Grammar → Value → Prop
  | recoverWith {f : Callback} {g : Grammar} {e w : Value} (he : g.CanFail I e)
      (hw : (f.apply [e]).Returns w) : CanChoose I (.recoverWith f) g w
  | andThen {f : Callback} {g : Grammar} {v w : Value} (hv : g.CanOutput I v)
      (hw : (f.apply [v]).Returns w) : CanChoose I (.andThen f) g w
  | onSuccess {f f' : Callback} {g : Grammar} {v w : Value} (hv : g.CanOutput I v)
      (hw : (f.apply [v]).Returns w) : CanChoose I (.bind f f') g w
  | onFailure {f f' : Callback} {g : Grammar} {e w : Value} (he : g.CanFail I e)
      (hw : (f'.apply [e]).Returns w) : CanChoose I (.bind f f') g w

/-- The plain functions that a grammar runs as parsers on inputs of a set. -/
inductive Borrows (I : Inputs) : Grammar → Rule → Prop
  | reply (outcome : Value) : Borrows I (.leaf (.reply outcome)) fun _ => pure outcome
  | function (identity : Nat) (f : Callback) :
      Borrows I (.leaf (.value (.function identity f))) fun input => f.apply [input]
  | parser {identity : Identity} {g : Grammar} {p : Rule} (h : Borrows I g p) :
      Borrows I (.leaf (.value (.parser identity g))) p
  | wrap {w : Wrapper} {g : Grammar} {p : Rule} (h : Borrows I g p) : Borrows I (.wrap w g) p
  | chosen {w : Wrapper} {g : Grammar} {v : Value} {p : Rule} (hv : CanChoose I w g v)
      (h : Borrows I (.leaf (.value v)) p) : Borrows I (.wrap w g) p
  | joinLeft {j : Joint} {g h : Grammar} {p : Rule} (hg : Borrows I g p) : Borrows I (.join j g h) p
  | joinRight {j : Joint} {g h : Grammar} {p : Rule} (hh : Borrows I h p) :
      Borrows I (.join j g h) p
  | inside {g left right : Grammar} {p : Rule} (h : Borrows I g p) :
      Borrows I (.surroundedBy g left right) p
  | before {g left right : Grammar} {p : Rule} (h : Borrows I left p) :
      Borrows I (.surroundedBy g left right) p
  | after {g left right : Grammar} {p : Rule} (h : Borrows I right p) :
      Borrows I (.surroundedBy g left right) p
  | recursive {x : Text} {body : Grammar} {p : Rule} (h : Borrows I (unfold x body) p) :
      Borrows I (.recursive x body) p
  | handle {x : Text} {body : Grammar} {p : Rule} (h : Borrows I (unfold x body) p) :
      Borrows I (.handle x body) p

end Grammar

namespace Run.Logic

variable {ι : Type} {L : Logic ι} {I : Inputs} {X : Scope ι} {S : Shape ι} {g : ι → Grammar}
  {depth : ι → Nat}

/-- What is read from replies that rules were seen to give can be read from
replies of the rules. -/
theorem canOutput_of_reads {v : ι → Value} (hX : ∀ a, X.inputs a → ∀ i, I.Mem (a i))
    (h : (S.seen X fun i => (g i).run (depth i)).reads v) : ∃ i, (g i).CanOutput I (v i) := by
  obtain ⟨-, i, input, rest, hinput, hr⟩ | ⟨r, ⟨-, i, input, hinput, hr⟩, hv⟩ := h
  · exact ⟨i, depth i, input i, _, hX input hinput i, hr, returns_pure.mpr rfl⟩
  · refine ⟨i, depth i, input i, _, hX input hinput i, hr, ?_⟩
    rw [hv i]
    exact returns_pure.mpr rfl

theorem canFail_of_errors {e : ι → Value} (hX : ∀ a, X.inputs a → ∀ i, I.Mem (a i))
    (h : (S.seen X fun i => (g i).run (depth i)).errors e) : ∃ i, (g i).CanFail I (e i) := by
  obtain ⟨-, i, input, rest, hinput, hr⟩ := h
  exact ⟨i, depth i, input i, _, hX input hinput i, hr, returns_pure.mpr rfl⟩

/-- A chosen parser is run like a value in the place of a parser. -/
theorem holds_choose {call : ι → Grammar → Rule} {Q : (ι → Rule) → Prop} {f : Callback} {v : Value}
    (hrules : ∀ w, (f.apply [v]).Returns w →
      Q fun i => (Leaf.value w).rule (call i)) :
    L.Holds (fun i => f.choose (call i) v) Q := by
  refine L.bind_steady (Callback.shallow_apply f [v]) fun w hw => ?_
  cases w with
  | function identity f => exact L.pure (hrules _ hw)
  | parser identity g => exact L.pure (hrules _ hw)
  | _ => exact L.fail nofun

end Run.Logic

end ParserCombinators
