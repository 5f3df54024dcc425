import ParserCombinators.Proofs.Reply
import ParserCombinators.Proofs.Shallow

/-!
Families of rules that are all given the same input and leave the same suffix
of it, with replies that are the same for all. A set of inputs is a scope if it
holds every suffix of its members.
-/

namespace ParserCombinators

open Run

namespace Value

theorem dropFirst_zero (v : Value) : v.dropFirst 0 = v := by
  cases v <;> rfl

theorem dropFirst_dropFirst (m n : Nat) (v : Value) :
    (v.dropFirst m).dropFirst n = v.dropFirst (m + n) := by
  cases v <;> simp [dropFirst]

theorem dropFirst_of_size_le {n : Nat} {v : Value} (h : v.size ≤ n) :
    v.dropFirst n = v.dropFirst v.size := by
  cases v <;> simp_all [dropFirst, size]

/-- A value is what another one is from some element on. -/
def IsSuffixOf (rest input : Value) : Prop :=
  rest.size ≤ input.size ∧ rest = input.dropFirst (input.size - rest.size)

theorem isSuffixOf_dropFirst (n : Nat) (v : Value) : (v.dropFirst n).IsSuffixOf v := by
  rw [IsSuffixOf, size_dropFirst]
  refine ⟨by omega, ?_⟩
  by_cases h : n ≤ v.size
  · rw [Nat.sub_sub_self h]
  · rw [show v.size - (v.size - n) = v.size by omega]
    exact dropFirst_of_size_le (by omega)

theorem returns_length {v : Value} {n : Nat} (h : v.length.Returns n) :
    v.isSequence = true ∧ n = v.size := by
  unfold length at h
  split at h
  case isTrue hs => exact ⟨hs, returns_pure.mp h⟩
  case isFalse => exact absurd h not_returns_fail

theorem returns_cutAt {v : Value} {index : Int} {a : Value × Value}
    (h : (v.cutAt index).Returns a) :
    a = (v.takeFirst (fromStart v.size index), v.dropFirst (fromStart v.size index)) := by
  obtain ⟨n, hn, ha⟩ := h.of_bind
  obtain ⟨-, rfl⟩ := returns_length hn
  exact returns_pure.mp ha

end Value

/-- A set of inputs with all their suffixes. -/
structure Inputs where
  Mem : Value → Prop
  dropFirst : ∀ {v} (n : Nat), Mem v → Mem (v.dropFirst n)

namespace Inputs

def all : Inputs := ⟨fun _ => True, fun _ _ => trivial⟩

def sequences : Inputs :=
  ⟨fun v => v.isSequence = true, fun n h => by rw [Value.isSequence_dropFirst, h]⟩

/-- Sequences of fewer than `n` elements. -/
def below (n : Nat) : Inputs where
  Mem v := v.isSequence = true ∧ v.size < n
  dropFirst {v} m h := by
    rw [Value.isSequence_dropFirst, Value.size_dropFirst]
    exact ⟨h.1, by omega⟩

end Inputs

/-- The family is given one input of the set and leaves one suffix of it. -/
def Scope.suffixes {ι : Type} (I : Inputs) : Scope ι where
  inputs a := ∃ v, I.Mem v ∧ a = fun _ => v
  leaves a b := ∃ n, b = fun i => (a i).dropFirst n
  refl {a} _ := ⟨0, funext fun i => ((a i).dropFirst_zero).symm⟩
  trans := by
    intro a a' b ha' hb
    obtain ⟨m, rfl⟩ := ha'
    obtain ⟨n, rfl⟩ := hb
    exact ⟨m + n, funext fun i => (a i).dropFirst_dropFirst m n⟩
  inputs_of_leaves := by
    intro a b ha hb
    obtain ⟨v, hv, rfl⟩ := ha
    obtain ⟨n, rfl⟩ := hb
    exact ⟨v.dropFirst n, I.dropFirst n hv, rfl⟩
  size_eq := by
    intro a ha
    obtain ⟨v, _, rfl⟩ := ha
    exact ⟨v.size, fun _ => rfl⟩
  isSequence_eq := by
    intro a ha
    obtain ⟨v, _, rfl⟩ := ha
    exact ⟨v.isSequence, fun _ => rfl⟩

theorem Scope.mem_of_suffixes {ι : Type} {I : Inputs} {a : ι → Value}
    (h : (Scope.suffixes I).inputs a) (i : ι) : I.Mem (a i) := by
  obtain ⟨v, hv, rfl⟩ := h
  exact hv

/-- Contents that are the same for all members of a family. -/
def Uniform {ι : Type} (A : Value → Prop) (a : ι → Value) : Prop := ∃ v, A v ∧ a = fun _ => v

theorem Uniform.mono {ι : Type} {A B : Value → Prop} (h : ∀ v, A v → B v) {a : ι → Value}
    (ha : Uniform A a) : Uniform B a := by
  obtain ⟨v, hv, rfl⟩ := ha
  exact ⟨v, h v hv, rfl⟩

def Shape.uniform {ι : Type} (outputs errors strays : Value → Prop) : Shape ι :=
  ⟨Uniform outputs, Uniform errors, Uniform strays⟩

/-- Outcomes with the given outputs and errors. -/
def Shape.of {ι : Type} (outputs errors : Value → Prop) : Shape ι :=
  .uniform outputs errors fun _ => False

/-- Any replies, so long as they are the same. -/
def Shape.same {ι : Type} : Shape ι := .uniform (fun _ => True) (fun _ => True) fun _ => True

section Uniform

variable {ι : Type} {A B C : Value → Prop} {a b : ι → Value}

theorem uniform_const {v : Value} (h : A v) : Uniform A fun _ : ι => v := ⟨v, h, rfl⟩

theorem uniform_self {v : Value} : Uniform (· = v) fun _ : ι => v := ⟨v, rfl, rfl⟩

theorem Uniform.map {f : Value → Value} (ha : Uniform A a) (hf : ∀ v, A v → B (f v)) :
    Uniform B fun i => f (a i) := by
  obtain ⟨v, hv, rfl⟩ := ha
  exact uniform_const (hf v hv)

theorem Uniform.map₂ {f : Value → Value → Value} (ha : Uniform A a) (hb : Uniform B b)
    (hf : ∀ v w, A v → B w → C (f v w)) : Uniform C fun i => f (a i) (b i) := by
  obtain ⟨v, hv, rfl⟩ := ha
  obtain ⟨w, hw, rfl⟩ := hb
  exact uniform_const (hf v w hv hw)

theorem uniform_mem {vs : List (ι → Value)} (h : ∀ a ∈ vs, Uniform A a) :
    ∃ ws : List Value, ws.length = vs.length ∧ (∀ w ∈ ws, A w) ∧ ∀ i, vs.map (· i) = ws := by
  induction vs with
  | nil => exact ⟨[], rfl, by simp, fun _ => rfl⟩
  | cons a vs ih =>
    obtain ⟨w, hw, rfl⟩ := h a (List.mem_cons_self ..)
    obtain ⟨ws, hlength, hws, hmap⟩ := ih fun b hb => h b (List.mem_cons_of_mem _ hb)
    refine ⟨w :: ws, by simp [hlength], ?_, fun i => by simp [hmap i]⟩
    intro u hu
    rcases List.mem_cons.mp hu with rfl | hu
    · exact hw
    · exact hws u hu

theorem uniform_listOf {vs : List (ι → Value)} (h : ∀ a ∈ vs, Uniform A a)
    (hlist : ∀ ws : List Value, ws.length = vs.length → (∀ w ∈ ws, A w) → B (.list ws)) :
    Uniform B (listOf vs) := by
  obtain ⟨ws, hlength, hws, hmap⟩ := uniform_mem h
  exact ⟨.list ws, hlist ws hlength hws, funext fun i => congrArg Value.list (hmap i)⟩

end Uniform

/-- The members of a family are given the same elements, and every suffix of an
input may be left. -/
class Scope.Elementwise {ι : Type} (X : Scope ι) : Prop where
  elements : ∀ {a}, X.inputs a → ∃ vs, ∀ i, (a i).elements = vs
  leaves : ∀ {a} (n : Nat), X.inputs a → X.leaves a fun i => (a i).dropFirst n

instance {ι : Type} (I : Inputs) : (Scope.suffixes (ι := ι) I).Elementwise where
  elements ha := by
    obtain ⟨v, -, rfl⟩ := ha
    exact ⟨v.elements, fun _ => rfl⟩
  leaves n _ := ⟨n, rfl⟩

/-- All members are given one input, and every suffix of an input may be left. -/
structure Scope.Ordinary {ι : Type} (X : Scope ι) : Prop where
  inputs : ∀ a, X.inputs a → Uniform (fun _ => True) a
  leaves : ∀ a b, (Scope.suffixes .all).leaves a b → X.leaves a b

theorem Scope.Ordinary.elementwise {ι : Type} {X : Scope ι} (hX : X.Ordinary) : X.Elementwise where
  elements ha := by
    obtain ⟨v, -, rfl⟩ := hX.inputs _ ha
    exact ⟨v.elements, fun _ => rfl⟩
  leaves n _ := hX.leaves _ _ ⟨n, rfl⟩

theorem Scope.ordinary_suffixes {ι : Type} (I : Inputs) : (Scope.suffixes (ι := ι) I).Ordinary where
  inputs _ h := Uniform.mono (fun _ _ => trivial) h
  leaves _ _ h := h

/-- Any input and any rest, so long as they are the same. -/
def Scope.same {ι : Type} : Scope ι where
  inputs a := Uniform (fun _ => True) a
  leaves a b := Uniform (fun _ => True) a → Uniform (fun _ => True) b
  refl _ := id
  trans hab hbc ha := hbc (hab ha)
  inputs_of_leaves ha hab := hab ha
  size_eq := by
    intro a ha
    obtain ⟨v, -, rfl⟩ := ha
    exact ⟨v.size, fun _ => rfl⟩
  isSequence_eq := by
    intro a ha
    obtain ⟨v, -, rfl⟩ := ha
    exact ⟨v.isSequence, fun _ => rfl⟩

theorem Scope.ordinary_same {ι : Type} : (Scope.same (ι := ι)).Ordinary where
  inputs _ h := h
  leaves a b := by
    intro h h'
    obtain ⟨n, rfl⟩ := h
    obtain ⟨v, -, rfl⟩ := h'
    exact ⟨v.dropFirst n, trivial, rfl⟩

instance {ι : Type} : (Scope.same (ι := ι)).Elementwise := Scope.ordinary_same.elementwise

theorem Run.Logic.Fits.ordinary {ι : Type} {L : Logic ι} {X : Scope ι} {S : Shape ι}
    {p : ι → Rule} (hX : X.Ordinary) (hp : L.Fits (Scope.suffixes .all) S p) : L.Fits X S p :=
  hp.rescope hX.inputs hX.leaves

theorem Run.Logic.Fits.loosen {ι : Type} {L : Logic ι} {X : Scope ι} {p : ι → Rule}
    {A B A' B' : Value → Prop} (hp : L.Fits X (.of A B) p) (houtputs : ∀ v, A v → A' v)
    (herrors : ∀ e, B e → B' e) : L.Fits X (.of A' B') p :=
  hp.weaken (fun _ hv => Uniform.mono houtputs hv) (fun _ he => Uniform.mono herrors he)
    fun _ hr => hr

end ParserCombinators
