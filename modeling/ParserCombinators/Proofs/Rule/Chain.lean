import ParserCombinators.Proofs.Rule.Repeat
import ParserCombinators.Rule.Chain

/-!
The shapes of items with separators and of chains. A chain outputs what its
operators make of its terms, so its outputs are a set that holds the terms and
that the operators keep.
-/

namespace ParserCombinators.Run.Logic

variable {ι : Type} {L : Logic ι} {X : Scope ι} {S T U : Shape ι} {p separator operator : ι → Rule}

/-- A round after the first item. It goes on with `k` after two matches that
consume something together, and ends with `a` otherwise. -/
theorem Fits.round {β : Type} {Q : (ι → β) → Prop} {rest : ι → Value} {a : ι → Run β}
    {k : ι → Value → Value → Value → Run β} (hp : L.Fits X S p) (hq : L.Fits X T separator)
    (hrest : X.inputs rest) {n : Nat} (hn : ∀ i, (rest i).size = n) (hstop : L.Holds a Q)
    (hmore : ∀ (middle f v next : ι → Value) (m : Nat), T.outputs f → S.outputs v →
      X.leaves rest next → (∀ i, (next i).size = m) → m < n →
      L.Holds (fun i => k i (.success (middle i) (f i)) (.success (next i) (v i)) (next i)) Q) :
    L.Holds (fun i => do
      let s ← separator i (rest i)
      if s.isTrue then
        let middle ← s.rest
        let r ← p i middle
        if r.isTrue then
          let next ← r.rest
          next.comparable (rest i)
          if next.size < (rest i).size then k i s r next else a i
        else a i
      else a i) Q := by
  refine L.bind (hq rest hrest) ?_
  intro r hr
  rcases hr with @⟨middle, f, hmiddle, hf⟩ | _ | ⟨_, hs⟩
  · simp only [Value.isTrue_success, if_true, Value.rest_success, pure_bind]
    refine L.bind (hp middle (X.inputs_of_leaves hrest hmiddle)) ?_
    intro r hr
    rcases hr with @⟨next, v, hnext, hv⟩ | _ | ⟨_, hr⟩
    · simp only [Value.isTrue_success, if_true, Value.rest_success, pure_bind]
      have hleaves := X.trans hmiddle hnext
      have hinputs := X.inputs_of_leaves hrest hleaves
      refine bind_comparable hinputs hrest ?_
      obtain ⟨m, hm⟩ := X.size_eq hinputs
      by_cases hlt : m < n
      · simp only [hn, hm, if_pos hlt]
        exact hmore middle f v next m hf hv hleaves hm hlt
      · simp only [hn, hm, if_neg hlt]
        exact hstop
    · simpa only [Value.isTrue_failure, Bool.false_eq_true, if_false] using hstop
    · exact hr.cases L (fun _ => hr.bind_rest L _) fun _ => hstop
  · simpa only [Value.isTrue_failure, Bool.false_eq_true, if_false] using hstop
  · exact hs.cases L (fun _ => hs.bind_rest L _) fun _ => hstop

/-- What the rounds of a separated list return: a rest, and at least as many
outputs as there were before. -/
def Separated (X : Scope ι) (S : Shape ι) (count : Nat) (rest : ι → Value)
    (a : ι → Value × List Value) : Prop :=
  ∃ (next : ι → Value) (vs : List (ι → Value)), X.leaves rest next ∧ count ≤ vs.length ∧
    (∀ v ∈ vs, S.outputs v) ∧ a = fun i => (next i, vs.map (· i))

theorem Fits.separatedFrom (hp : L.Fits X S p) (hq : L.Fits X T separator) (n : Nat) :
    ∀ (vs : List (ι → Value)) (rest : ι → Value), (∀ v ∈ vs, S.outputs v) → X.inputs rest →
      (∀ i, (rest i).size = n) →
      L.Holds (fun i => Rule.separatedFrom (p i) (separator i) (vs.map (· i)) (rest i))
        (Separated X S vs.length rest) := by
  induction n using Nat.strongRecOn with
  | ind n ih =>
    intro vs rest hvs hrest hn
    refine L.congr (fun i => Rule.separatedFrom.eq_1 _ _ _ _) ?_
    refine hp.round (a := fun i => Pure.pure (rest i, vs.map (· i)))
      (k := fun i _ r next => r.output >>= fun v =>
        Rule.separatedFrom (p i) (separator i) (vs.map (· i) ++ [v]) next) hq hrest hn ?_ ?_
    · exact L.pure ⟨rest, vs, X.refl hrest, Nat.le_refl _, hvs, rfl⟩
    · intro _ _ v next m _ hv hnext hm hlt
      have hinputs := X.inputs_of_leaves hrest hnext
      simp only [Value.output_success, pure_bind, map_snoc]
      refine L.weaken (ih m hlt (vs ++ [v]) next (forall_mem_snoc hvs hv) hinputs hm) ?_
      intro a ha
      obtain ⟨last, ws, hlast, hcount, hws, rfl⟩ := ha
      rw [List.length_append] at hcount
      exact ⟨last, ws, X.trans hnext hlast, by omega, hws, rfl⟩

theorem Fits.sepBy (hp : L.Fits X S p) (hq : L.Fits X T separator)
    (hlists : ∀ vs : List (ι → Value), (∀ v ∈ vs, S.outputs v) → U.outputs (listOf vs)) :
    L.Fits X U fun i => (p i).sepBy (separator i) := by
  intro input hinput
  refine L.bind (hp input hinput) ?_
  intro r hr
  rcases hr with @⟨next, v, hnext, hv⟩ | _ | ⟨_, hr⟩
  · simp only [Value.isTrue_success, if_true, Value.rest_success, Value.output_success, pure_bind]
    have hinputs := X.inputs_of_leaves hinput hnext
    obtain ⟨n, hn⟩ := X.size_eq hinputs
    refine L.bind (hp.separatedFrom hq n [v] next (by simpa using hv) hinputs hn) ?_
    intro a ha
    obtain ⟨rest, vs, hrest, _, hvs, rfl⟩ := ha
    exact accept (X.trans hnext hrest) (hlists vs hvs)
  · simp only [Value.isTrue_failure, Bool.false_eq_true, if_false]
    exact accept (X.refl hinput) (hlists [] (by simp))
  · exact hr.cases L (fun _ => hr.bind_rest L _)
      fun _ => accept (X.refl hinput) (hlists [] (by simp))

theorem Fits.sepBy1 {error : ι → Value} (hp : L.Fits X S p) (hq : L.Fits X T separator)
    (hlists : ∀ vs : List (ι → Value), 1 ≤ vs.length → (∀ v ∈ vs, S.outputs v) →
      U.outputs (listOf vs))
    (herror : U.errors error) :
    L.Fits X U fun i => Rule.sepBy1 (error i) (p i) (separator i) := by
  intro input hinput
  refine L.bind (hp input hinput) ?_
  intro r hr
  rcases hr with @⟨next, v, hnext, hv⟩ | _ | ⟨_, hr⟩
  · simp only [Value.isTrue_success, if_true, Value.rest_success, Value.output_success, pure_bind]
    have hinputs := X.inputs_of_leaves hinput hnext
    obtain ⟨n, hn⟩ := X.size_eq hinputs
    refine L.bind (hp.separatedFrom hq n [v] next (by simpa using hv) hinputs hn) ?_
    intro a ha
    obtain ⟨rest, vs, hrest, hcount, hvs, rfl⟩ := ha
    exact accept (X.trans hnext hrest) (hlists vs hcount hvs)
  · simp only [Value.isTrue_failure, Bool.false_eq_true, if_false]
    exact reject (X.refl hinput) herror
  · exact hr.cases L (fun _ => hr.bind_rest L _) fun _ => reject (X.refl hinput) herror

section Chains

variable {invoke : ι → Value → List Value → Run Value}

theorem Fits.chainLeftFrom (hp : L.Fits X S p) (hq : L.Fits X T operator)
    (hinvoke : ∀ f a v, T.outputs f → U.outputs a → S.outputs v →
      L.Holds (fun i => invoke i (f i) [a i, v i]) U.outputs) (n : Nat) :
    ∀ result rest : ι → Value, U.outputs result → X.inputs rest → (∀ i, (rest i).size = n) →
      L.Holds (fun i => Rule.chainLeftFrom (invoke i) (p i) (operator i) (result i) (rest i))
        (Reply X U rest) := by
  induction n using Nat.strongRecOn with
  | ind n ih =>
    intro result rest hresult hrest hn
    refine L.congr (fun i => Rule.chainLeftFrom.eq_1 _ _ _ _ _) ?_
    refine hp.round (a := fun i => ParserCombinators.accept (rest i) (result i))
      (k := fun i s r next => s.output >>= fun f => r.output >>= fun v =>
        invoke i f [result i, v] >>= fun combined =>
          Rule.chainLeftFrom (invoke i) (p i) (operator i) combined next) hq hrest hn ?_ ?_
    · exact accept (X.refl hrest) hresult
    · intro _ f v next m hf hv hnext hm hlt
      simp only [Value.output_success, pure_bind]
      refine L.bind (hinvoke f result v hf hresult hv) fun combined hcombined => ?_
      exact L.weaken (ih m hlt combined next hcombined (X.inputs_of_leaves hrest hnext) hm)
        fun r hr => hr.trans hnext

/-- What the operators of a chain make of its terms belongs to any set that
holds the terms and that the operators keep. -/
theorem Fits.chainLeft (hp : L.Fits X S p) (hq : L.Fits X T operator)
    (hterms : ∀ v, S.outputs v → U.outputs v)
    (hinvoke : ∀ f a v, T.outputs f → U.outputs a → S.outputs v →
      L.Holds (fun i => invoke i (f i) [a i, v i]) U.outputs)
    (herrors : ∀ e, S.errors e → U.errors e) (hstrays : ∀ r, S.strays r → U.strays r) :
    L.Fits X U fun i => Rule.chainLeft (invoke i) (p i) (operator i) := by
  intro input hinput
  refine L.bind (hp input hinput) ?_
  intro r hr
  rcases hr with @⟨next, v, hnext, hv⟩ | @⟨rest, e, hrest, he⟩ | ⟨hs, hr⟩
  · simp only [Value.isTrue_success, if_true, Value.rest_success, Value.output_success, pure_bind]
    have hinputs := X.inputs_of_leaves hinput hnext
    obtain ⟨n, hn⟩ := X.size_eq hinputs
    exact L.weaken (hp.chainLeftFrom hq hinvoke n v next (hterms v hv) hinputs hn)
      fun r hr => hr.trans hnext
  · simp only [Value.isTrue_failure, Bool.false_eq_true, if_false]
    exact L.pure (.failure hrest (herrors e he))
  · exact hr.cases L (fun _ => hr.bind_rest L _) fun _ => L.pure (.stray (hstrays _ hs) hr)

/-- What the rounds of a chain to the right return: a rest, terms with their
operators, and a last term. -/
def Linked (X : Scope ι) (S T : Shape ι) (rest : ι → Value)
    (a : ι → Value × List (Value × Value) × Value) : Prop :=
  ∃ (next last : ι → Value) (links : List ((ι → Value) × (ι → Value))), X.leaves rest next ∧
    S.outputs last ∧ (∀ l ∈ links, S.outputs l.1 ∧ T.outputs l.2) ∧
    a = fun i => (next i, links.map (fun l => (l.1 i, l.2 i)), last i)

theorem Fits.chainRightFrom (hp : L.Fits X S p) (hq : L.Fits X T operator) (n : Nat) :
    ∀ (links : List ((ι → Value) × (ι → Value))) (last rest : ι → Value),
      (∀ l ∈ links, S.outputs l.1 ∧ T.outputs l.2) → S.outputs last → X.inputs rest →
      (∀ i, (rest i).size = n) →
      L.Holds (fun i => Rule.chainRightFrom (p i) (operator i)
        (links.map fun l => (l.1 i, l.2 i)) (last i) (rest i)) (Linked X S T rest) := by
  induction n using Nat.strongRecOn with
  | ind n ih =>
    intro links last rest hlinks hlast hrest hn
    refine L.congr (fun i => Rule.chainRightFrom.eq_1 _ _ _ _ _) ?_
    refine hp.round (a := fun i => Pure.pure
        (rest i, links.map (fun l => (l.1 i, l.2 i)), last i))
      (k := fun i s r next => s.output >>= fun f => r.output >>= fun v =>
        Rule.chainRightFrom (p i) (operator i)
          (links.map (fun l => (l.1 i, l.2 i)) ++ [(last i, f)]) v next) hq hrest hn ?_ ?_
    · exact L.pure ⟨rest, last, links, X.refl hrest, hlast, hlinks, rfl⟩
    · intro _ f v next m hf hv hnext hm hlt
      have hsnoc : ∀ l ∈ links ++ [(last, f)], S.outputs l.1 ∧ T.outputs l.2 := by
        intro l hl
        rcases List.mem_append.mp hl with hl | hl
        · exact hlinks l hl
        · exact List.mem_singleton.mp hl ▸ ⟨hlast, hf⟩
      have hround := ih m hlt (links ++ [(last, f)]) v next hsnoc hv
        (X.inputs_of_leaves hrest hnext) hm
      simp only [Value.output_success, pure_bind]
      simp only [List.map_append, List.map_singleton] at hround
      refine L.weaken hround ?_
      intro a ha
      obtain ⟨rest', last', links', hrest', hlast', hlinks', rfl⟩ := ha
      exact ⟨rest', last', links', X.trans hnext hrest', hlast', hlinks', rfl⟩

theorem holds_combineRight (hterms : ∀ v, S.outputs v → U.outputs v)
    (hinvoke : ∀ f v a, T.outputs f → S.outputs v → U.outputs a →
      L.Holds (fun i => invoke i (f i) [v i, a i]) U.outputs) {last : ι → Value}
    (hlast : S.outputs last) (links : List ((ι → Value) × (ι → Value)))
    (hlinks : ∀ l ∈ links, S.outputs l.1 ∧ T.outputs l.2) :
    L.Holds (fun i => Rule.combineRight (invoke i) (last i) (links.map fun l => (l.1 i, l.2 i)))
      U.outputs := by
  induction links with
  | nil => exact L.pure (hterms last hlast)
  | cons l links ih =>
    obtain ⟨hv, hf⟩ := hlinks l (List.mem_cons_self ..)
    refine L.bind (ih fun m hm => hlinks m (List.mem_cons_of_mem l hm)) fun result hresult => ?_
    exact hinvoke l.2 l.1 result hf hv hresult

theorem Fits.chainRight (hp : L.Fits X S p) (hq : L.Fits X T operator)
    (hterms : ∀ v, S.outputs v → U.outputs v)
    (hinvoke : ∀ f v a, T.outputs f → S.outputs v → U.outputs a →
      L.Holds (fun i => invoke i (f i) [v i, a i]) U.outputs)
    (herrors : ∀ e, S.errors e → U.errors e) (hstrays : ∀ r, S.strays r → U.strays r) :
    L.Fits X U fun i => Rule.chainRight (invoke i) (p i) (operator i) := by
  intro input hinput
  refine L.bind (hp input hinput) ?_
  intro r hr
  rcases hr with @⟨next, v, hnext, hv⟩ | @⟨rest, e, hrest, he⟩ | ⟨hs, hr⟩
  · simp only [Value.isTrue_success, if_true, Value.rest_success, Value.output_success, pure_bind]
    have hinputs := X.inputs_of_leaves hinput hnext
    obtain ⟨n, hn⟩ := X.size_eq hinputs
    refine L.bind (hp.chainRightFrom hq n [] v next (by simp) hv hinputs hn) ?_
    intro a ha
    obtain ⟨rest, last, links, hrest, hlast, hlinks, rfl⟩ := ha
    refine L.bind (holds_combineRight hterms hinvoke hlast links hlinks) fun result hresult => ?_
    exact accept (X.trans hnext hrest) hresult
  · simp only [Value.isTrue_failure, Bool.false_eq_true, if_false]
    exact L.pure (.failure hrest (herrors e he))
  · exact hr.cases L (fun _ => hr.bind_rest L _) fun _ => L.pure (.stray (hstrays _ hs) hr)

end Chains

end ParserCombinators.Run.Logic
