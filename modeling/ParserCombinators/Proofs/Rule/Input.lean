import ParserCombinators.Proofs.Uniform

/-!
The rules that look at the input themselves. What they leave is a suffix of
their input, and they fail only with the error that they are given.
-/

namespace ParserCombinators.Run.Logic

variable {ι : Type} {L : Logic ι} {I : Inputs} {X : Scope ι} {S : Shape ι}

theorem fits_always {v : Value} (hv : S.outputs fun _ => v) :
    L.Fits X S fun _ => Rule.always v :=
  fun _ ha => accept (X.refl ha) hv

theorem fits_never {e : Value} (he : S.errors fun _ => e) :
    L.Fits X S fun _ => Rule.never e :=
  fun _ ha => reject (X.refl ha) he

theorem fits_endOfInput {error : Value} (hnone : S.outputs fun _ => .none)
    (herror : S.errors fun _ => error) : L.Fits X S fun _ => Rule.endOfInput error := by
  intro a ha
  refine bind_length ha fun size => ?_
  by_cases hsize : size = 0
  · simp only [if_pos hsize]
    exact accept (X.refl ha) hnone
  · simp only [if_neg hsize]
    exact reject (X.refl ha) herror

section Elementwise

variable [X.Elementwise]

/-- The inputs of a family have the same elements. -/
theorem bind_item {β : Type} {a : ι → Value} {f : ι → Value → Run β} {Q : (ι → β) → Prop}
    (ha : X.inputs a) (index : Int)
    (hf : ∀ v, (∀ i, v ∈ (a i).elements) → L.Holds (fun i => f i v) Q) :
    L.Holds (fun i => (a i).item index >>= f i) Q := by
  obtain ⟨vs, hvs⟩ := Scope.Elementwise.elements ha
  simp only [Value.item, bind_assoc]
  refine bind_length ha fun size => ?_
  by_cases hout : index < -size
  · simp only [if_pos hout]
    exact L.bind_fail nofun
  · simp only [if_neg hout, Value.at?_eq_elements, hvs]
    refine L.bind_steady (shallow_ofOption nofun) fun v hv => hf v fun i => ?_
    rw [hvs i]
    exact List.mem_of_getElem? (returns_ofOption.mp hv)

/-- The test is run on one element of the input. -/
theorem fits_element {test : ι → Value → Run Bool} {error : Value}
    (htest : ∀ a v, X.inputs a → (∀ i, v ∈ (a i).elements) →
      L.Holds (fun i => test i v) fun passed =>
        (∀ i, passed i = true) ∧ (S.outputs fun _ => v) ∨ ∀ i, passed i = false)
    (herror : S.errors fun _ => error) :
    L.Fits X S fun i => Rule.element (test i) error := by
  intro a ha
  refine bind_length ha fun size => ?_
  by_cases hsize : size = 0
  · simp only [if_pos hsize]
    exact reject (X.refl ha) herror
  · simp only [if_neg hsize]
    refine bind_item ha 0 fun head hhead => ?_
    refine L.bind (htest a head ha hhead) ?_
    intro passed hpassed
    rcases hpassed with ⟨hpass, hv⟩ | hrefuse
    · simp only [hpass, if_true]
      exact accept (Scope.Elementwise.leaves 1 ha) hv
    · simp only [hrefuse, Bool.false_eq_true, if_false]
      exact reject (X.refl ha) herror

theorem fits_element_steady {test : Value → Run Bool} {error : Value}
    (hshallow : ∀ v, (test v).Shallow)
    (htest : ∀ v, (test v).Returns true → S.outputs fun _ => v)
    (herror : S.errors fun _ => error) :
    L.Fits X S fun _ => Rule.element test error := by
  refine fits_element (fun _ v _ _ => L.steady (hshallow v) fun passed hpassed => ?_) herror
  cases passed with
  | true => exact .inl ⟨fun _ => rfl, htest v hpassed⟩
  | false => exact .inr fun _ => rfl

theorem fits_anything {error : Value}
    (houtputs : ∀ a v, X.inputs a → (∀ i, v ∈ (a i).elements) → S.outputs fun _ => v)
    (herror : S.errors fun _ => error) :
    L.Fits X S fun _ => Rule.anything error :=
  fits_element (fun a v ha hv => L.pure (.inl ⟨fun _ => rfl, houtputs a v ha hv⟩)) herror

end Elementwise

/-- What is left when a match leaves all but the first `n` elements. -/
theorem accept_dropFirst {input v : Value} (n : Nat) (hv : S.outputs fun _ => v) :
    L.Holds (fun _ => ParserCombinators.accept (input.dropFirst n) v)
      (Reply (Scope.suffixes I) S fun _ => input) :=
  accept ⟨n, rfl⟩ hv

theorem reject_input {input e : Value} (he : S.errors fun _ => e) :
    L.Holds (fun _ => ParserCombinators.reject input e)
      (Reply (Scope.suffixes I) S fun _ => input) :=
  reject ⟨0, funext fun _ => input.dropFirst_zero.symm⟩ he

theorem fits_literal {pattern error : Value}
    (houtputs : ∀ input n, I.Mem input → (input.takeFirst n).equals pattern = true →
      S.outputs fun _ => input.takeFirst n)
    (herror : S.errors fun _ => error) :
    L.Fits (Scope.suffixes I) S fun _ => Rule.literal pattern error := by
  intro a ha
  obtain ⟨input, hinput, rfl⟩ := ha
  refine L.bind_steady (input.shallow_cutAt _) fun a ha => ?_
  obtain rfl := Value.returns_cutAt ha
  by_cases hequal : (input.takeFirst (Value.fromStart input.size pattern.size)).equals pattern
  · simp only [hequal, if_true]
    exact accept_dropFirst _ (houtputs _ _ hinput hequal)
  · simp only [hequal]
    exact reject_input herror

theorem fits_take {count : Int} {error : Value}
    (houtputs : ∀ input n, I.Mem input → S.outputs fun _ => input.takeFirst n)
    (herror : S.errors fun _ => error) :
    L.Fits (Scope.suffixes I) S fun _ => Rule.take count error := by
  intro a ha
  obtain ⟨input, hinput, rfl⟩ := ha
  refine L.bind_steady input.shallow_length fun size _ => ?_
  by_cases hcount : count ≤ size
  · simp only [if_pos hcount]
    refine L.bind_steady (input.shallow_cutAt count) fun a ha => ?_
    obtain rfl := Value.returns_cutAt ha
    exact accept_dropFirst _ (houtputs _ _ hinput)
  · simp only [if_neg hcount]
    exact reject_input herror

end ParserCombinators.Run.Logic
