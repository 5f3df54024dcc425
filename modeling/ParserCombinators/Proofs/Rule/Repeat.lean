import ParserCombinators.Proofs.Reply
import ParserCombinators.Rule.Repeat

/-!
The shapes of repetitions. A repetition outputs lists of the outputs of its
rule, as many as its bounds allow. Each loop is followed by induction on what
bounds it: on what is left of the input or on the matches that are missing.
-/

namespace ParserCombinators.Run.Logic

variable {ι : Type} {L : Logic ι} {X : Scope ι} {S U : Shape ι} {p : ι → Rule}

section Loops

variable {vs : List (ι → Value)} {v : ι → Value}

theorem forall_mem_snoc (hvs : ∀ w ∈ vs, S.outputs w) (hv : S.outputs v) :
    ∀ w ∈ vs ++ [v], S.outputs w := by
  intro w hw
  rcases List.mem_append.mp hw with hw | hw
  · exact hvs w hw
  · exact List.mem_singleton.mp hw ▸ hv

theorem map_snoc (vs : List (ι → Value)) (v : ι → Value) (i : ι) :
    vs.map (· i) ++ [v i] = (vs ++ [v]).map (· i) := by
  rw [List.map_append, List.map_singleton]

theorem Fits.manyFrom {onStall : ι → Nat → Run Unit} (hp : L.Fits X S p)
    (hstall : ∀ n, L.Holds (fun i => onStall i n) fun _ => True)
    (hlists : ∀ vs : List (ι → Value), (∀ v ∈ vs, S.outputs v) → U.outputs (listOf vs)) (n : Nat) :
    ∀ (vs : List (ι → Value)) (rest : ι → Value), (∀ v ∈ vs, S.outputs v) → X.inputs rest →
      (∀ i, (rest i).size = n) →
      L.Holds (fun i => Rule.manyFrom (onStall i) (p i) (vs.map (· i)) (rest i))
        (Reply X U rest) := by
  induction n using Nat.strongRecOn with
  | ind n ih =>
    intro vs rest hvs hrest hn
    refine L.congr (fun i => Rule.manyFrom.eq_1 _ _ _ _) (L.bind (hp rest hrest) ?_)
    intro r hr
    rcases hr with @⟨next, v, hnext, hv⟩ | @⟨next, _, hnext, _⟩ | ⟨_, hr⟩
    · simp only [Value.isTrue_success, if_true, Value.rest_success, Value.output_success,
        pure_bind]
      have hinputs := X.inputs_of_leaves hrest hnext
      refine bind_comparable hinputs hrest ?_
      obtain ⟨m, hm⟩ := X.size_eq hinputs
      simp only [hn, hm]
      by_cases hlt : m < n
      · simp only [if_pos hlt, map_snoc]
        exact L.weaken (ih m hlt (vs ++ [v]) next (forall_mem_snoc hvs hv) hinputs hm)
          fun r hr => hr.trans hnext
      · simp only [if_neg hlt]
        exact L.bind (hstall n) fun _ _ => accept (X.refl hrest) (hlists vs hvs)
    · simp only [Value.isTrue_failure, Bool.false_eq_true, if_false, Value.rest_failure, pure_bind]
      exact accept hnext (hlists vs hvs)
    · exact hr.cases L (fun _ => hr.bind_rest L _) fun _ => hr.bind_rest L _

theorem Fits.atLeastFrom {count : Nat} {error : ι → Value} (hp : L.Fits X S p)
    (hlists : ∀ vs : List (ι → Value), count ≤ vs.length → (∀ v ∈ vs, S.outputs v) →
      U.outputs (listOf vs))
    (herror : U.errors error) (missing n : Nat) :
    ∀ (vs : List (ι → Value)) (rest : ι → Value), count - vs.length = missing →
      (∀ v ∈ vs, S.outputs v) → X.inputs rest → (∀ i, (rest i).size = n) →
      L.Holds (fun i => Rule.atLeastFrom count (error i) (p i) (vs.map (· i)) (rest i))
        (Reply X U rest) := by
  -- Below the bound a match may leave an input that is longer.
  induction missing using Nat.strongRecOn generalizing n with
  | ind missing ihmissing =>
  induction n using Nat.strongRecOn with
  | ind n ihn =>
    intro vs rest hmissing hvs hrest hn
    refine L.congr (fun i => Rule.atLeastFrom.eq_1 _ _ _ _ _) (L.bind (hp rest hrest) ?_)
    intro r hr
    rcases hr with @⟨next, v, hnext, hv⟩ | @⟨next, _, hnext, _⟩ | ⟨_, hr⟩
    · simp only [Value.isTrue_success, if_true, Value.rest_success, Value.output_success,
        pure_bind]
      have hinputs := X.inputs_of_leaves hrest hnext
      refine bind_comparable hinputs hrest ?_
      obtain ⟨m, hm⟩ := X.size_eq hinputs
      simp only [hn, hm, List.length_map]
      by_cases hstop : n ≤ m ∧ count ≤ vs.length
      · simp only [if_pos hstop]
        exact accept (X.refl hrest) (hlists vs hstop.2 hvs)
      · simp only [if_neg hstop, map_snoc]
        have hvs' := forall_mem_snoc hvs hv
        refine L.weaken (P := Reply X U next) ?_ fun r hr => hr.trans hnext
        by_cases hcount : count ≤ vs.length
        · refine ihn m (by omega) (vs ++ [v]) next ?_ hvs' hinputs hm
          rw [List.length_append, List.length_singleton]
          omega
        · refine ihmissing (missing - 1) (by omega) m (vs ++ [v]) next ?_ hvs' hinputs hm
          rw [List.length_append, List.length_singleton]
          omega
    · simp only [Value.isTrue_failure, Bool.false_eq_true, if_false, Value.rest_failure, pure_bind,
        List.length_map]
      by_cases hcount : vs.length < count
      · simp only [if_pos hcount]
        exact reject hnext herror
      · simp only [if_neg hcount]
        exact accept hnext (hlists vs (by omega) hvs)
    · exact hr.cases L (fun _ => hr.bind_rest L _) fun _ => hr.bind_rest L _

theorem Fits.atMostFrom {count : Nat} (hp : L.Fits X S p)
    (hlists : ∀ vs : List (ι → Value), vs.length ≤ count → (∀ v ∈ vs, S.outputs v) →
      U.outputs (listOf vs)) (allowed : Nat) :
    ∀ (vs : List (ι → Value)) (rest : ι → Value), vs.length + allowed = count →
      (∀ v ∈ vs, S.outputs v) → X.inputs rest →
      L.Holds (fun i => Rule.atMostFrom (p i) allowed (vs.map (· i)) (rest i))
        (Reply X U rest) := by
  induction allowed with
  | zero =>
    intro vs rest hcount hvs hrest
    exact accept (X.refl hrest) (hlists vs (by omega) hvs)
  | succ allowed ih =>
    intro vs rest hcount hvs hrest
    refine L.bind (hp rest hrest) ?_
    intro r hr
    rcases hr with @⟨next, v, hnext, hv⟩ | @⟨next, _, hnext, _⟩ | ⟨_, hr⟩
    · simp only [Value.isTrue_success, if_true, Value.rest_success, Value.output_success,
        pure_bind]
      have hinputs := X.inputs_of_leaves hrest hnext
      refine bind_comparable hinputs hrest ?_
      obtain ⟨n, hn⟩ := X.size_eq hrest
      obtain ⟨m, hm⟩ := X.size_eq hinputs
      simp only [hn, hm]
      by_cases hlt : m < n
      · simp only [if_pos hlt, map_snoc]
        refine L.weaken (ih (vs ++ [v]) next ?_ (forall_mem_snoc hvs hv) hinputs)
          fun r hr => hr.trans hnext
        rw [List.length_append, List.length_singleton]
        omega
      · simp only [if_neg hlt]
        exact accept (X.refl hrest) (hlists vs (by omega) hvs)
    · simp only [Value.isTrue_failure, Bool.false_eq_true, if_false, Value.rest_failure, pure_bind]
      exact accept hnext (hlists vs (by omega) hvs)
    · exact hr.cases L (fun _ => hr.bind_rest L _) fun _ => hr.bind_rest L _

theorem Fits.exactlyFrom {count : Nat} {error : ι → Value} (hp : L.Fits X S p)
    (hlists : ∀ vs : List (ι → Value), vs.length = count → (∀ v ∈ vs, S.outputs v) →
      U.outputs (listOf vs))
    (herror : U.errors error) (missing : Nat) :
    ∀ (vs : List (ι → Value)) (rest : ι → Value), vs.length + missing = count →
      (∀ v ∈ vs, S.outputs v) → X.inputs rest →
      L.Holds (fun i => Rule.exactlyFrom (error i) (p i) missing (vs.map (· i)) (rest i))
        (Reply X U rest) := by
  induction missing with
  | zero =>
    intro vs rest hcount hvs hrest
    exact accept (X.refl hrest) (hlists vs (by omega) hvs)
  | succ missing ih =>
    intro vs rest hcount hvs hrest
    refine L.bind (hp rest hrest) ?_
    intro r hr
    rcases hr with @⟨next, v, hnext, hv⟩ | @⟨next, _, hnext, _⟩ | ⟨_, hr⟩
    · simp only [Value.isTrue_success, if_true, Value.rest_success, Value.output_success,
        pure_bind, map_snoc]
      refine L.weaken (ih (vs ++ [v]) next ?_ (forall_mem_snoc hvs hv)
        (X.inputs_of_leaves hrest hnext)) fun r hr => hr.trans hnext
      rw [List.length_append, List.length_singleton]
      omega
    · simp only [Value.isTrue_failure, Bool.false_eq_true, if_false, Value.rest_failure, pure_bind]
      exact reject hnext herror
    · exact hr.cases L (fun _ => hr.bind_output L fun _ _ => hr.bind_rest L _)
        fun _ => hr.bind_rest L _

end Loops

theorem Fits.many {onStall : ι → Nat → Run Unit} (hp : L.Fits X S p)
    (hstall : ∀ n, L.Holds (fun i => onStall i n) fun _ => True)
    (hlists : ∀ vs : List (ι → Value), (∀ v ∈ vs, S.outputs v) → U.outputs (listOf vs)) :
    L.Fits X U fun i => (p i).many (onStall i) := by
  intro input hinput
  obtain ⟨n, hn⟩ := X.size_eq hinput
  exact hp.manyFrom hstall hlists n [] input (by simp) hinput hn

theorem Fits.atLeast {count : Nat} {error : ι → Value} (hp : L.Fits X S p)
    (hlists : ∀ vs : List (ι → Value), count ≤ vs.length → (∀ v ∈ vs, S.outputs v) →
      U.outputs (listOf vs))
    (herror : U.errors error) : L.Fits X U fun i => (p i).atLeast count (error i) := by
  intro input hinput
  obtain ⟨n, hn⟩ := X.size_eq hinput
  exact hp.atLeastFrom hlists herror count n [] input (by simp) (by simp) hinput hn

theorem Fits.atMost {count : Nat} (hp : L.Fits X S p)
    (hlists : ∀ vs : List (ι → Value), vs.length ≤ count → (∀ v ∈ vs, S.outputs v) →
      U.outputs (listOf vs)) :
    L.Fits X U fun i => (p i).atMost count :=
  fun input hinput => hp.atMostFrom hlists count [] input (by simp) (by simp) hinput

theorem Fits.exactly {count : Nat} {error : ι → Value} (hp : L.Fits X S p)
    (hlists : ∀ vs : List (ι → Value), vs.length = count → (∀ v ∈ vs, S.outputs v) →
      U.outputs (listOf vs))
    (herror : U.errors error) : L.Fits X U fun i => (p i).exactly count (error i) :=
  fun input hinput => hp.exactlyFrom hlists herror count [] input (by simp) (by simp) hinput

end ParserCombinators.Run.Logic
