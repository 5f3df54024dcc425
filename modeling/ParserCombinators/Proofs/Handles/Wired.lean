import ParserCombinators.Proofs.Handles.Mentions

/-!
Grammars, functions and values in which every handle has its definition. A
recursive parser opens without losing that, and functions that are given such values
return such values.
-/

namespace ParserCombinators

open Run

/-- No parser in the value waits for a definition. -/
def Value.IsWired (v : Value) : Prop := ∀ y, ¬ v.Mentions True y

def Callback.IsWired (f : Callback) : Prop := ∀ y, ¬ f.Mentions True y

def Choice.IsWired (c : Choice) : Prop := ∀ y, ¬ c.Mentions True y

def Grammar.IsWired (g : Grammar) : Prop := ∀ y, ¬ g.Mentions True y

section Parts

variable {p q : Option Text → Prop}

/-- What is mentioned in neither of two parts. -/
theorem absent_either (hp : ∀ y, ¬ p y) (hq : ∀ y, ¬ q y) : ∀ y, ¬ (p y ∨ q y) :=
  fun y h => h.elim (hp y) (hq y)

theorem absent_first (h : ∀ y, ¬ (p y ∨ q y)) : ∀ y, ¬ p y := fun y hy => h y (.inl hy)

theorem absent_second (h : ∀ y, ¬ (p y ∨ q y)) : ∀ y, ¬ q y := fun y hy => h y (.inr hy)

end Parts

section Values

namespace Value

variable {v w : Value} {vs : List Value}

theorem anyMentions_iff {early : Prop} {y : Option Text} :
    AnyMentions early y vs ↔ ∃ v ∈ vs, v.Mentions early y := by
  induction vs with
  | nil => simp [AnyMentions]
  | cons v vs ih => simp [AnyMentions, ih]

theorem isWired_list : (list vs).IsWired ↔ ∀ v ∈ vs, v.IsWired := by
  constructor
  · exact fun h v hv y hy => h y (anyMentions_iff.mpr ⟨v, hv, hy⟩)
  · intro h y hy
    obtain ⟨v, hv, hy⟩ := anyMentions_iff.mp hy
    exact h v hv y hy

theorem isWired_tuple : (tuple vs).IsWired ↔ ∀ v ∈ vs, v.IsWired := isWired_list

theorem isWired_pair (hv : v.IsWired) (hw : w.IsWired) : (tuple [v, w]).IsWired := by
  simp [isWired_tuple, hv, hw]

theorem isWired_success : (success v w).IsWired ↔ v.IsWired ∧ w.IsWired := by
  simp only [IsWired, Mentions, not_or, forall_and]

theorem isWired_failure : (failure v w).IsWired ↔ v.IsWired ∧ w.IsWired := isWired_success

theorem isWired_branch {side : Side} (hv : v.IsWired) : (branch side v).IsWired := hv

theorem isWired_none : none.IsWired := fun _ => id

theorem isWired_bool (b : Bool) : (bool b).IsWired := fun _ => id

theorem isWired_int (n : Int) : (int n).IsWired := fun _ => id

theorem isWired_text (t : Text) : (text t).IsWired := fun _ => id

theorem IsWired.elements (h : v.IsWired) : ∀ w ∈ v.elements, w.IsWired := by
  cases v with
  | text t =>
    intro w hw
    obtain ⟨c, -, rfl⟩ := List.mem_map.mp hw
    exact isWired_text [c]
  | bytes b =>
    intro w hw
    obtain ⟨c, -, rfl⟩ := List.mem_map.mp hw
    exact isWired_int c.toNat
  | list items => exact isWired_list.mp h
  | tuple items => exact isWired_tuple.mp h
  | _ => exact nofun

theorem IsWired.dropFirst (h : v.IsWired) (n : Nat) : (v.dropFirst n).IsWired := by
  cases v with
  | list items =>
    exact isWired_list.mpr fun w hw => isWired_list.mp h w (List.mem_of_mem_drop hw)
  | tuple items =>
    exact isWired_tuple.mpr fun w hw => isWired_tuple.mp h w (List.mem_of_mem_drop hw)
  | _ => exact h

theorem IsWired.takeFirst (h : v.IsWired) (n : Nat) : (v.takeFirst n).IsWired := by
  cases v with
  | list items =>
    exact isWired_list.mpr fun w hw => isWired_list.mp h w (List.mem_of_mem_take hw)
  | tuple items =>
    exact isWired_tuple.mpr fun w hw => isWired_tuple.mp h w (List.mem_of_mem_take hw)
  | _ => exact h

theorem isWired_foldAll : ∀ v : Value, v.IsWired → v.foldAll.IsWired
  | branch _ v => fun h => isWired_foldAll v h
  | none | bool _ | int _ | text _ | bytes _ | list _ | tuple _ | success _ _ | failure _ _
  | function _ _ | parser _ _ => id

end Value

theorem Grammar.IsWired.toValue {g : Grammar} (h : g.IsWired) (identity : Nat) :
    (g.toValue identity).IsWired := by
  unfold Grammar.toValue
  split
  · exact h
  · exact h

theorem Choice.isWired_find (v : Value) : ∀ c : Choice, c.IsWired → (c.find v).IsWired
  | .otherwise i g, h => Grammar.IsWired.toValue (g := g) h i
  | .when key i g next, h => by
    have hg : g.IsWired := fun y hy => h y (.inr (.inl hy))
    have hnext : next.IsWired := fun y hy => h y (.inr (.inr hy))
    rw [Choice.find]
    split
    · exact hg.toValue i
    · exact next.isWired_find v hnext

end Values

namespace Grammar

variable {x : Text} {g body : Grammar}

/-- A grammar without free names that has been built is wired. -/
theorem isWired_of_construct (h : g.construct.Returns ())
    (hclosed : ∀ y, ¬ g.Mentions False y) : g.IsWired :=
  fun y hy => hclosed y (g.mentions_of_construct h hy)

/-- The handle in the place of its name has its definition. -/
theorem IsWired.unfold (h : (handle x body).IsWired) : (Grammar.unfold x body).IsWired := by
  intro y hy
  obtain ⟨hbody, hx⟩ := mentions_subst (h y) body hy
  exact h y ⟨hx, hbody⟩

end Grammar

section Returns

/-- Whatever the run returns is wired. -/
def Run.ReturnsWired (r : Run Value) : Prop := ∀ w, r.Returns w → w.IsWired

variable {α : Type} {v w : Value}

theorem returnsWired_pure (h : v.IsWired) : (pure v : Run Value).ReturnsWired := by
  intro w hw
  rw [returns_pure.mp hw]
  exact h

theorem returnsWired_fail (e : Fault) : (Run.fail e).ReturnsWired :=
  fun _ h => absurd h not_returns_fail

theorem returnsWired_bind {r : Run α} {f : α → Run Value}
    (hf : ∀ a, r.Returns a → (f a).ReturnsWired) : (r >>= f).ReturnsWired := by
  intro w hw
  obtain ⟨a, ha, hw⟩ := hw.of_bind
  exact hf a ha w hw

theorem returnsWired_ofOption {e : Fault} {o : Option Value} (h : ∀ v, o = some v → v.IsWired) :
    (Run.ofOption e o).ReturnsWired := fun w hw => h w (returns_ofOption.mp hw)

namespace Value

variable (v w)

theorem returnsWired_item (hv : v.IsWired) (index : Int) : (v.item index).ReturnsWired := by
  refine returnsWired_bind fun size _ => ?_
  split
  · exact returnsWired_fail _
  · refine returnsWired_ofOption fun w hw => ?_
    rw [at?_eq_elements] at hw
    exact hv.elements w (List.mem_of_getElem? hw)

theorem returnsWired_follow (path : List Int) : ∀ v : Value, v.IsWired →
    (follow path v).ReturnsWired := by
  induction path with
  | nil => exact fun v hv => returnsWired_pure hv
  | cons index path ih =>
    exact fun v hv => returnsWired_bind fun w hw => ih w (v.returnsWired_item hv index w hw)

theorem isWired_of_iterate (hv : v.IsWired) {vs : List Value} (h : v.iterate.Returns vs) :
    ∀ w ∈ vs, w.IsWired := by
  unfold iterate at h
  split at h
  · rw [returns_pure.mp h]
    simpa using isWired_success.mp hv
  · rw [returns_pure.mp h]
    simpa using isWired_failure.mp hv
  · split at h
    · rw [returns_pure.mp h]
      exact hv.elements
    · exact absurd h not_returns_fail

theorem returnsWired_foldBranch (hv : v.IsWired) : v.foldBranch.ReturnsWired := by
  cases v with
  | branch side v => exact returnsWired_pure hv
  | _ => exact returnsWired_fail _

theorem returnsWired_join : v.join.ReturnsWired :=
  returnsWired_bind fun _ _ => returnsWired_bind fun t _ => returnsWired_pure (isWired_text t)

theorem returnsWired_toText : v.toText.ReturnsWired :=
  returnsWired_bind fun _ _ => returnsWired_pure (isWired_text _)

theorem returnsWired_sideAndValue : v.sideAndValue.ReturnsWired :=
  returnsWired_bind fun _ _ => returnsWired_bind fun _ _ => returnsWired_bind fun _ _ =>
    returnsWired_pure (isWired_text _)

theorem returnsWired_readInteger (t : Text) : (readInteger t).ReturnsWired :=
  returnsWired_bind fun n _ => returnsWired_pure (isWired_int n)

theorem returnsWired_toInteger : v.toInteger.ReturnsWired := by
  unfold toInteger
  split
  · exact returnsWired_readInteger _
  · split
    · exact returnsWired_readInteger _
    · exact returnsWired_fail _
  · exact returnsWired_bind fun n _ => returnsWired_pure (isWired_int n)

theorem returnsWired_toUpper : v.toUpper.ReturnsWired := by
  cases v with
  | text t => exact returnsWired_pure (isWired_text _)
  | _ => exact returnsWired_fail _

theorem returnsWired_toLower : v.toLower.ReturnsWired := by
  cases v with
  | text t => exact returnsWired_pure (isWired_text _)
  | _ => exact returnsWired_fail _

theorem returnsWired_arithmetic (f : Int → Int → Int) : (arithmetic f v w).ReturnsWired :=
  returnsWired_bind fun _ _ => returnsWired_bind fun _ _ => returnsWired_pure (isWired_int _)

theorem returnsWired_plus : (v.plus w).ReturnsWired := by
  unfold plus
  split
  · exact returnsWired_pure (isWired_text _)
  · exact returnsWired_arithmetic _ _ _

theorem returnsWired_add (hv : v.IsWired) (hw : w.IsWired) : (v.add w).ReturnsWired := by
  unfold add
  split
  · refine returnsWired_pure (isWired_list.mpr fun u hu => ?_)
    exact (List.mem_append.mp hu).elim (isWired_list.mp hv u) (isWired_list.mp hw u)
  · refine returnsWired_pure (isWired_tuple.mpr fun u hu => ?_)
    exact (List.mem_append.mp hu).elim (isWired_tuple.mp hv u) (isWired_tuple.mp hw u)
  · exact returnsWired_plus _ _

theorem returnsWired_modulo : (v.modulo w).ReturnsWired := by
  refine returnsWired_bind fun a _ => returnsWired_bind fun b _ => ?_
  split
  · exact returnsWired_fail _
  · exact returnsWired_pure (isWired_int _)

end Value

theorem Grammar.returnsWired_make {g : Grammar} (hg : g.IsWired) : g.make.ReturnsWired :=
  returnsWired_bind fun _ _ => returnsWired_pure hg

namespace Callback

/-- A parser made anew from a value that is checked first. -/
theorem returnsWired_construction {check : Run α} {g : Grammar} (hg : g.IsWired) :
    (check >>= fun _ => v.requireWritable >>= fun _ => g.make).ReturnsWired :=
  returnsWired_bind fun _ _ => returnsWired_bind fun _ _ => Grammar.returnsWired_make hg

mutual

theorem returnsWired_apply : ∀ (f : Callback) (arguments : List Value), f.IsWired →
    (∀ v ∈ arguments, v.IsWired) → (f.apply arguments).ReturnsWired
  | f, arguments => fun hf harguments => by
    have hfirst : ∀ v, arguments = [v] → v.IsWired := by
      intro v heq
      exact harguments v (heq ▸ List.mem_singleton_self v)
    unfold apply
    split
    -- The cases are those of the definition. What they return is made of what the
    -- function holds and of its arguments.
    all_goals first
      | exact returnsWired_fail _
      | exact returnsWired_pure (Value.isWired_bool _)
      | exact returnsWired_pure (Value.isWired_tuple.mpr harguments)
      | exact returnsWired_pure (hfirst _ rfl)
      | exact returnsWired_pure (Value.isWired_branch (hfirst _ rfl))
      | exact returnsWired_pure hf
      | exact returnsWired_pure (Value.isWired_pair (hfirst _ rfl) (hfirst _ rfl))
      | exact returnsWired_pure (Value.isWired_foldAll _ (hfirst _ rfl))
      | exact returnsWired_pure (Grammar.IsWired.toValue hf _)
      | exact returnsWired_pure (Choice.isWired_find _ _ hf)
      | exact returnsWired_bind fun _ _ => returnsWired_pure (Value.isWired_int _)
      | exact returnsWired_bind fun _ _ => returnsWired_pure (Value.isWired_bool _)
      | exact Value.returnsWired_add _ _ (hfirst _ rfl) hf
      | exact Value.returnsWired_follow _ _ (hfirst _ rfl)
      | exact Value.returnsWired_foldBranch _ (hfirst _ rfl)
      | exact Value.returnsWired_toText _
      | exact Value.returnsWired_toInteger _
      | exact Value.returnsWired_join _
      | exact Value.returnsWired_sideAndValue _
      | exact Value.returnsWired_plus _ _
      | exact Value.returnsWired_modulo _ _
      | exact Value.returnsWired_arithmetic _ _ _
      | exact returnsWired_construction
          (absent_either (absent_either (hfirst _ rfl) (absent_second hf)) (absent_first hf))
      | exact returnsWired_construction (absent_either (hfirst _ rfl) hf)
      | exact returnsWired_bind fun _ _ => Grammar.returnsWired_make (hfirst _ rfl)
      | exact returnsWired_applyAll _ _ hf (hfirst _ rfl)
      | exact returnsWired_apply _ _ hf harguments

theorem returnsWired_applyAll : ∀ (functions : List Callback) (v : Value),
    (Callback.compose functions).IsWired → v.IsWired → (applyAll functions v).ReturnsWired
  | [], v => fun _ hv => returnsWired_pure hv
  | f :: functions, _ => fun hf hv => returnsWired_bind fun w hw =>
    returnsWired_applyAll functions w (fun y hy => hf y (.inr hy))
      (returnsWired_apply f [_] (fun y hy => hf y (.inl hy)) (by simpa using hv) w hw)

end

end Callback

end Returns

end ParserCombinators
