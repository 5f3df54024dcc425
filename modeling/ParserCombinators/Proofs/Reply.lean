import ParserCombinators.Proofs.Logic
import ParserCombinators.Rule.Basic

/-!
What can be said of the replies of rules that run side by side. A scope tells
which inputs are looked at and how what is left of an input stands to it. A
shape tells what successes and failures hold. A family of rules fits both if,
on every input of the scope, all of its members succeed together or fail
together, with rests as the scope has them and contents as the shape has them.
-/

namespace ParserCombinators

open Run

namespace Value

@[simp]
theorem isTrue_success (rest v : Value) : (success rest v).isTrue = true := rfl

@[simp]
theorem isTrue_failure (rest e : Value) : (failure rest e).isTrue = false := rfl

@[simp]
theorem rest_success (rest v : Value) : (success rest v).rest = pure rest := rfl

@[simp]
theorem rest_failure (rest e : Value) : (failure rest e).rest = pure rest := rfl

@[simp]
theorem output_success (rest v : Value) : (success rest v).output = pure v := rfl

@[simp]
theorem error_failure (rest e : Value) : (failure rest e).error = pure e := rfl

/-- The input that an outcome leaves, if a value is one. -/
def rest? : Value → Option Value
  | success rest _ => some rest
  | failure rest _ => some rest
  | _ => Option.none

end Value

variable {ι : Type}

/-- Inputs that are looked at together, and rests that they may leave. The
inputs of one family are equally long, so that a loop ends for all at once. -/
structure Scope (ι : Type) where
  inputs : (ι → Value) → Prop
  leaves : (ι → Value) → (ι → Value) → Prop
  refl : ∀ {a}, inputs a → leaves a a
  trans : ∀ {a b c}, leaves a b → leaves b c → leaves a c
  inputs_of_leaves : ∀ {a b}, inputs a → leaves a b → inputs b
  size_eq : ∀ {a}, inputs a → ∃ n, ∀ i, (a i).size = n
  isSequence_eq : ∀ {a}, inputs a → ∃ b, ∀ i, (a i).isSequence = b

/-- What the successes and failures of a family hold, and which replies it has
that are no outcomes. -/
structure Shape (ι : Type) where
  outputs : (ι → Value) → Prop
  errors : (ι → Value) → Prop
  strays : (ι → Value) → Prop

/-- Replies that are no outcomes. Some hold a value all the same. -/
structure Stray (r : ι → Value) : Prop where
  rest : ∀ i, (r i).rest = Run.fail .noField
  error : ∀ i, (r i).error = Run.fail .noField
  truth : ∃ b, ∀ i, (r i).isTrue = b
  output : (∃ v : ι → Value, ∀ i, (r i).output = pure (v i)) ∨
    ∀ i, (r i).output = Run.fail .noField

/-- What can be read as the output of a reply. -/
def Shape.reads (S : Shape ι) (v : ι → Value) : Prop :=
  S.outputs v ∨ ∃ r, S.strays r ∧ ∀ i, (r i).output = pure (v i)

/-- The lists of outputs of a family, one for each index. -/
def listOf (vs : List (ι → Value)) : ι → Value := fun i => .list (vs.map (· i))

inductive Reply (X : Scope ι) (S : Shape ι) (input : ι → Value) : (ι → Value) → Prop
  | success {rest v : ι → Value} (hrest : X.leaves input rest) (hv : S.outputs v) :
      Reply X S input fun i => .success (rest i) (v i)
  | failure {rest e : ι → Value} (hrest : X.leaves input rest) (he : S.errors e) :
      Reply X S input fun i => .failure (rest i) (e i)
  | stray {r : ι → Value} (hr : S.strays r) (hstray : Stray r) : Reply X S input r

/-- A reply that counts as a match. -/
def Passed (X : Scope ι) (S : Shape ι) (r : ι → Value) : Prop :=
  (∃ rest v : ι → Value, X.inputs rest ∧ S.outputs v ∧ r = fun i => .success (rest i) (v i)) ∨
    S.strays r ∧ ∀ i, (r i).isTrue = true

theorem Reply.trans {X : Scope ι} {S : Shape ι} {input middle r : ι → Value}
    (hr : Reply X S middle r) (hmiddle : X.leaves input middle) : Reply X S input r := by
  obtain ⟨hrest, hv⟩ | ⟨hrest, he⟩ | ⟨hs, hstray⟩ := hr
  · exact .success (X.trans hmiddle hrest) hv
  · exact .failure (X.trans hmiddle hrest) he
  · exact .stray hs hstray

/-- The replies of a family are all matches or all mismatches. -/
theorem Reply.passed_or {X : Scope ι} {S : Shape ι} {input r : ι → Value}
    (hr : Reply X S input r) (hinput : X.inputs input) :
    ((∀ i, (r i).isTrue = true) ∧ Passed X S r) ∨
      ((∀ i, (r i).isTrue = false) ∧
        ((∃ e, S.errors e ∧ ∀ i, (r i).error = pure (e i)) ∨ Stray r)) := by
  obtain @⟨rest, v, hrest, hv⟩ | @⟨rest, e, hrest, he⟩ | ⟨hs, hstray⟩ := hr
  · exact .inl ⟨fun _ => rfl, .inl ⟨rest, v, X.inputs_of_leaves hinput hrest, hv, rfl⟩⟩
  · exact .inr ⟨fun _ => rfl, .inl ⟨e, he, fun _ => rfl⟩⟩
  · obtain ⟨b, hb⟩ := hstray.truth
    cases b with
    | true => exact .inl ⟨hb, .inr ⟨hs, hb⟩⟩
    | false => exact .inr ⟨hb, .inr hstray⟩

/-- The rules reply to every input of the scope, and as the shape has it. -/
def Run.Logic.Fits (L : Logic ι) (X : Scope ι) (S : Shape ι) (p : ι → Rule) : Prop :=
  ∀ input, X.inputs input → L.Holds (fun i => p i (input i)) (Reply X S input)

/-- The contents of a shape that the rules do reply with. -/
def Shape.seen (S : Shape ι) (X : Scope ι) (p : ι → Rule) : Shape ι where
  outputs v := S.outputs v ∧
    ∃ i input rest, X.inputs input ∧ (p i (input i)).Returns (.success rest (v i))
  errors e := S.errors e ∧
    ∃ i input rest, X.inputs input ∧ (p i (input i)).Returns (.failure rest (e i))
  strays r := S.strays r ∧ ∃ i input, X.inputs input ∧ (p i (input i)).Returns (r i)

/-- A reply whose success leaves an input of another scope. -/
inductive Handover (X Y : Scope ι) (S : Shape ι) (input : ι → Value) : (ι → Value) → Prop
  | success {rest v : ι → Value} (hrest : X.leaves input rest) (hnext : Y.inputs rest)
      (hv : S.outputs v) : Handover X Y S input fun i => .success (rest i) (v i)
  | failure {rest e : ι → Value} (hrest : X.leaves input rest) (he : S.errors e) :
      Handover X Y S input fun i => .failure (rest i) (e i)
  | stray {r : ι → Value} (hr : S.strays r) (hstray : Stray r) : Handover X Y S input r

def Run.Logic.HandsOver (L : Logic ι) (X Y : Scope ι) (S : Shape ι) (p : ι → Rule) : Prop :=
  ∀ input, X.inputs input → L.Holds (fun i => p i (input i)) (Handover X Y S input)

section Stray

variable {β : Type} {r : ι → Value} (L : Logic ι) {Q : (ι → β) → Prop}

theorem Stray.bind_rest (hr : Stray r) (f : ι → Value → Run β) :
    L.Holds (fun i => (r i).rest >>= f i) Q := by
  refine L.congr (s := fun i => Run.fail .noField >>= f i) (fun i => ?_) (L.bind_fail nofun)
  rw [hr.rest i]

theorem Stray.bind_error (hr : Stray r) (f : ι → Value → Run β) :
    L.Holds (fun i => (r i).error >>= f i) Q := by
  refine L.congr (s := fun i => Run.fail .noField >>= f i) (fun i => ?_) (L.bind_fail nofun)
  rw [hr.error i]

/-- Reading the value of a stray reply, if it holds one. -/
theorem Stray.bind_output (hr : Stray r) {f : ι → Value → Run β}
    (hf : ∀ v : ι → Value, (∀ i, (r i).output = pure (v i)) → L.Holds (fun i => f i (v i)) Q) :
    L.Holds (fun i => (r i).output >>= f i) Q := by
  rcases hr.output with ⟨v, hv⟩ | hfail
  · refine L.congr (s := fun i => f i (v i)) (fun i => ?_) (hf v hv)
    rw [hv i, pure_bind]
  · refine L.congr (s := fun i => Run.fail .noField >>= f i) (fun i => ?_) (L.bind_fail nofun)
    rw [hfail i]

theorem Stray.cases (hr : Stray r) {f g : ι → Run β}
    (htrue : (∀ i, (r i).isTrue = true) → L.Holds f Q)
    (hfalse : (∀ i, (r i).isTrue = false) → L.Holds g Q) :
    L.Holds (fun i => if (r i).isTrue = true then f i else g i) Q := by
  obtain ⟨b, hb⟩ := hr.truth
  cases b with
  | true => simpa only [hb, if_true] using htrue hb
  | false => simpa only [hb, Bool.false_eq_true, if_false] using hfalse hb

/-- A reply is an outcome or a stray. -/
theorem stray_of_rest?_eq_none {r : Value} (h : r.rest? = none) : Stray fun _ : ι => r := by
  cases r with
  | success rest v => cases h
  | failure rest e => cases h
  | branch side v => exact ⟨fun _ => rfl, fun _ => rfl, ⟨_, fun _ => rfl⟩, Or.inl ⟨_, fun _ => rfl⟩⟩
  | _ => exact ⟨fun _ => rfl, fun _ => rfl, ⟨_, fun _ => rfl⟩, Or.inr fun _ => rfl⟩

theorem Stray.rest?_eq_none (h : Stray r) (i : ι) : (r i).rest? = none := by
  have hrest := h.rest i
  cases hr : r i with
  | success rest v =>
    rw [hr] at hrest
    exact absurd (returns_pure.mpr rfl) (hrest ▸ not_returns_fail (a := rest))
  | failure rest e =>
    rw [hr] at hrest
    exact absurd (returns_pure.mpr rfl) (hrest ▸ not_returns_fail (a := rest))
  | _ => rfl

end Stray

namespace Run.Logic

variable {β : Type} {L : Logic ι} {X : Scope ι} {S T : Shape ι} {p : ι → Rule}

theorem Fits.weaken (hp : L.Fits X S p) (houtputs : ∀ v, S.outputs v → T.outputs v)
    (herrors : ∀ e, S.errors e → T.errors e) (hstrays : ∀ r, S.strays r → T.strays r) :
    L.Fits X T p := by
  intro input hinput
  refine L.weaken (hp input hinput) ?_
  intro r hr
  rcases hr with ⟨hrest, hv⟩ | ⟨hrest, he⟩ | ⟨hr, hstray⟩
  · exact .success hrest (houtputs _ hv)
  · exact .failure hrest (herrors _ he)
  · exact .stray (hstrays _ hr) hstray

theorem Fits.rescope {Y : Scope ι} (hp : L.Fits X S p) (hinputs : ∀ a, Y.inputs a → X.inputs a)
    (hleaves : ∀ a b, X.leaves a b → Y.leaves a b) : L.Fits Y S p := by
  intro input hinput
  refine L.weaken (hp input (hinputs input hinput)) ?_
  intro r hr
  rcases hr with ⟨hrest, hv⟩ | ⟨hrest, he⟩ | ⟨hr, hstray⟩
  · exact .success (hleaves _ _ hrest) hv
  · exact .failure (hleaves _ _ hrest) he
  · exact .stray hr hstray

theorem Fits.seen (hp : L.Fits X S p) : L.Fits X (S.seen X p) p := by
  intro input hinput
  refine L.weaken (L.seen (hp input hinput)) ?_
  intro r hr
  rcases hr with ⟨@⟨rest, v, hrest, hv⟩ | @⟨rest, e, hrest, he⟩ | ⟨hr, hstray⟩, i, hreturns⟩
  · exact .success hrest ⟨hv, i, input, rest i, hinput, hreturns⟩
  · exact .failure hrest ⟨he, i, input, rest i, hinput, hreturns⟩
  · exact .stray ⟨hr, i, input, hinput, hreturns⟩ hstray

theorem Fits.handsOver (hp : L.Fits X S p) : L.HandsOver X X S p := by
  intro input hinput
  refine L.weaken (hp input hinput) ?_
  intro r hr
  rcases hr with ⟨hrest, hv⟩ | ⟨hrest, he⟩ | ⟨hr, hstray⟩
  · exact .success hrest (X.inputs_of_leaves hinput hrest) hv
  · exact .failure hrest he
  · exact .stray hr hstray

theorem Fits.congr {q : ι → Rule} (hq : L.Fits X S q) (h : ∀ i input, p i input = q i input) :
    L.Fits X S p :=
  fun input hinput => L.congr (fun i => h i (input i)) (hq input hinput)

theorem accept {input rest v : ι → Value} (hrest : X.leaves input rest) (hv : S.outputs v) :
    L.Holds (fun i => accept (rest i) (v i)) (Reply X S input) :=
  L.pure (.success hrest hv)

theorem reject {input rest e : ι → Value} (hrest : X.leaves input rest) (he : S.errors e) :
    L.Holds (fun i => reject (rest i) (e i)) (Reply X S input) :=
  L.pure (.failure hrest he)

/-- What is asked of a value that is no sequence ends all runs. -/
theorem bind_wrongType {α : Type} {f : ι → α → Run β} {Q : (ι → β) → Prop} :
    L.Holds (fun i => Run.fail .wrongType >>= f i) Q :=
  L.bind_fail nofun

/-- Inputs of a scope are equally long. -/
theorem bind_length {a : ι → Value} {f : ι → Nat → Run β} {Q : (ι → β) → Prop} (ha : X.inputs a)
    (hf : ∀ n, L.Holds (fun i => f i n) Q) : L.Holds (fun i => (a i).length >>= f i) Q := by
  obtain ⟨s, hs⟩ := X.isSequence_eq ha
  obtain ⟨n, hn⟩ := X.size_eq ha
  simp only [Value.length, hs, hn]
  by_cases h : s = true
  · simp only [if_pos h, pure_bind]
    exact hf n
  · simp only [if_neg h]
    exact L.bind_wrongType

/-- Inputs of a scope are sequences together or not at all, so comparing their
lengths ends all runs or none. -/
theorem bind_comparable {a b : ι → Value} {f : ι → Unit → Run β} {Q : (ι → β) → Prop}
    (ha : X.inputs a) (hb : X.inputs b) (hf : L.Holds (fun i => f i ()) Q) :
    L.Holds (fun i => (a i).comparable (b i) >>= f i) Q := by
  obtain ⟨s, hs⟩ := X.isSequence_eq ha
  obtain ⟨t, ht⟩ := X.isSequence_eq hb
  simp only [Value.comparable, hs, ht]
  by_cases h : (s && t) = true
  · simp only [if_pos h, pure_bind]
    exact hf
  · simp only [if_neg h]
    exact L.bind_wrongType

end Run.Logic

end ParserCombinators
