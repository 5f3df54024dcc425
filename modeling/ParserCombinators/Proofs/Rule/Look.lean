import ParserCombinators.Proofs.Reply
import ParserCombinators.Rule.Bind
import ParserCombinators.Rule.Look

/-!
The shapes of rules that look ahead, that go back, and that go on as an output
or an error tells them. A rule chosen at run time must fit itself, whichever
it is.
-/

namespace ParserCombinators.Run.Logic

variable {ι : Type} {L : Logic ι} {X : Scope ι} {S T U : Shape ι} {p q : ι → Rule}

theorem Fits.not {error : ι → Value} (hp : L.Fits X S p) (hnone : U.outputs fun _ => .none)
    (herror : U.errors error) : L.Fits X U fun i => (p i).not (error i) := by
  intro input hinput
  refine L.bind (hp input hinput) ?_
  intro a ha
  rcases ha with _ | _ | ⟨_, hr⟩
  · simp only [Value.isTrue_success, if_true]
    exact reject (X.refl hinput) herror
  · simp only [Value.isTrue_failure, Bool.false_eq_true, if_false]
    exact accept (X.refl hinput) hnone
  · exact hr.cases L (fun _ => reject (X.refl hinput) herror)
      fun _ => accept (X.refl hinput) hnone

theorem Fits.lookahead (hp : L.Fits X S p) (houtputs : ∀ v, S.reads v → U.outputs v)
    (herrors : ∀ e, S.errors e → U.errors e) : L.Fits X U fun i => (p i).lookahead := by
  intro input hinput
  refine L.bind (hp input hinput) ?_
  intro r hr
  rcases hr with @⟨_, v, _, hv⟩ | @⟨_, e, _, he⟩ | ⟨hs, hr⟩
  · simp only [Value.isTrue_success, if_true, Value.output_success, pure_bind]
    exact accept (X.refl hinput) (houtputs v (.inl hv))
  · simp only [Value.isTrue_failure, Bool.false_eq_true, if_false, Value.error_failure, pure_bind]
    exact reject (X.refl hinput) (herrors e he)
  · exact hr.cases L
      (fun _ => hr.bind_output L fun v hv =>
        accept (X.refl hinput) (houtputs v (.inr ⟨_, hs, hv⟩)))
      fun _ => hr.bind_error L _

theorem Fits.backtrack (hp : L.Fits X S p) (houtputs : ∀ v, S.outputs v → U.outputs v)
    (herrors : ∀ e, S.errors e → U.errors e) (hstrays : ∀ r, S.strays r → U.strays r) :
    L.Fits X U fun i => (p i).backtrack := by
  intro input hinput
  refine L.bind (hp input hinput) ?_
  intro r hr
  rcases hr with @⟨rest, v, hrest, hv⟩ | @⟨_, e, _, he⟩ | ⟨hs, hr⟩
  · simp only [Value.isTrue_success, if_true]
    exact L.pure (.success hrest (houtputs v hv))
  · simp only [Value.isTrue_failure, Bool.false_eq_true, if_false, Value.error_failure, pure_bind]
    exact reject (X.refl hinput) (herrors e he)
  · exact hr.cases L (fun _ => L.pure (.stray (hstrays _ hs) hr)) fun _ => hr.bind_error L _

/-- The rule chosen by an error runs on the whole input. -/
theorem Fits.recoverWith {f : ι → Value → Run Rule} (hp : L.Fits X S p)
    (hf : ∀ e, S.errors e → L.Holds (fun i => f i (e i)) (L.Fits X U))
    (houtputs : ∀ v, S.outputs v → U.outputs v) (hstrays : ∀ r, S.strays r → U.strays r) :
    L.Fits X U fun i => (p i).recoverWith (f i) := by
  intro input hinput
  refine L.bind (hp input hinput) ?_
  intro r hr
  rcases hr with @⟨rest, v, hrest, hv⟩ | @⟨_, e, _, he⟩ | ⟨hs, hr⟩
  · simp only [Value.isTrue_success, if_true]
    exact L.pure (.success hrest (houtputs v hv))
  · simp only [Value.isTrue_failure, Bool.false_eq_true, if_false, Value.error_failure, pure_bind]
    exact L.bind (hf e he) fun q hq => hq input hinput
  · exact hr.cases L (fun _ => L.pure (.stray (hstrays _ hs) hr)) fun _ => hr.bind_error L _

/-- A pair of outcomes, `none` in the place of a failure, but not of both. -/
theorem Fits.orBoth (hp : L.Fits X S p) (hq : L.Fits X T q)
    (houtputs : ∀ a b, Passed X S a ∨ a = (fun _ => .none) → Passed X T b ∨ b = (fun _ => .none) →
      Passed X S a ∨ Passed X T b → U.outputs fun i => .tuple [a i, b i])
    (herrors : ∀ d e, S.errors d → T.errors e → U.errors fun i => .tuple [d i, e i]) :
    L.Fits X U fun i => (p i).orBoth (q i) := by
  intro input hinput
  refine L.bind (hp input hinput) fun r hr => ?_
  refine L.bind (hq input hinput) fun s hs => ?_
  obtain ⟨hrt, hrp⟩ | ⟨hrt, hre⟩ := hr.passed_or hinput <;>
    obtain ⟨hst, hsp⟩ | ⟨hst, hse⟩ := hs.passed_or hinput <;>
    simp only [hrt, hst, Bool.not_true, Bool.not_false, Bool.and_true, Bool.and_false,
      Bool.false_eq_true, if_true, if_false]
  · exact accept (X.refl hinput) (houtputs r s (.inl hrp) (.inl hsp) (.inl hrp))
  · exact accept (X.refl hinput) (houtputs r (fun _ => .none) (.inl hrp) (.inr rfl) (.inl hrp))
  · exact accept (X.refl hinput) (houtputs (fun _ => .none) s (.inr rfl) (.inl hsp) (.inr hsp))
  · rcases hre with ⟨d, hd, hrd⟩ | hr
    · simp only [hrd, pure_bind]
      rcases hse with ⟨e, he, hse⟩ | hs
      · simp only [hse, pure_bind]
        exact reject (X.refl hinput) (herrors d e hd he)
      · exact hs.bind_error L _
    · exact hr.bind_error L _

/-- A rule goes on with another one, chosen by its output. -/
theorem Fits.andThen {f : ι → Value → Run Rule} (hp : L.Fits X S p)
    (hf : ∀ v, S.reads v → L.Holds (fun i => f i (v i)) (L.Fits X U))
    (herrors : ∀ e, S.errors e → U.errors e) (hstrays : ∀ r, S.strays r → U.strays r) :
    L.Fits X U fun i => (p i).andThen (f i) := by
  intro input hinput
  refine L.bind (hp input hinput) ?_
  intro r hr
  rcases hr with @⟨rest, v, hrest, hv⟩ | @⟨rest, e, hrest, he⟩ | ⟨hs, hr⟩
  · simp only [Value.isTrue_success, if_true, Value.rest_success, Value.output_success, pure_bind]
    refine L.bind (hf v (.inl hv)) fun q hq => ?_
    exact L.weaken (hq rest (X.inputs_of_leaves hinput hrest)) fun r hr => hr.trans hrest
  · simp only [Value.isTrue_failure, Bool.false_eq_true, if_false]
    exact L.pure (.failure hrest (herrors e he))
  · refine hr.cases L (fun _ => hr.bind_output L fun v hv => ?_)
      fun _ => L.pure (.stray (hstrays _ hs) hr)
    exact L.bind (hf v (.inr ⟨_, hs, hv⟩)) fun q _ => hr.bind_rest L _

/-- Both the rule chosen by an output and the one chosen by an error run on
what is left. -/
theorem Fits.bind {f g : ι → Value → Run Rule} (hp : L.Fits X S p)
    (hf : ∀ v, S.reads v → L.Holds (fun i => f i (v i)) (L.Fits X U))
    (hg : ∀ e, S.errors e → L.Holds (fun i => g i (e i)) (L.Fits X U)) :
    L.Fits X U fun i => (p i).bind (f i) (g i) := by
  intro input hinput
  refine L.bind (hp input hinput) ?_
  intro r hr
  rcases hr with @⟨rest, v, hrest, hv⟩ | @⟨rest, e, hrest, he⟩ | ⟨hs, hr⟩
  · simp only [Value.isTrue_success, if_true, Value.rest_success, Value.output_success, pure_bind]
    refine L.bind (hf v (.inl hv)) fun q hq => ?_
    exact L.weaken (hq rest (X.inputs_of_leaves hinput hrest)) fun r hr => hr.trans hrest
  · simp only [Value.isTrue_failure, Bool.false_eq_true, if_false, Value.rest_failure,
      Value.error_failure, pure_bind]
    refine L.bind (hg e he) fun q hq => ?_
    exact L.weaken (hq rest (X.inputs_of_leaves hinput hrest)) fun r hr => hr.trans hrest
  · refine hr.cases L (fun _ => hr.bind_output L fun v hv => ?_) fun _ => hr.bind_error L _
    exact L.bind (hf v (.inr ⟨_, hs, hv⟩)) fun q _ => hr.bind_rest L _

/-- A function is read from the first output and its arguments from the second. -/
theorem Fits.apply {invoke : ι → Value → List Value → Run Value} (hp : L.Fits X S p)
    (hq : L.Fits X T q)
    (houtputs : ∀ f v, S.outputs f → T.outputs v → L.Holds
      (fun i => (v i).iterate >>= fun arguments => invoke i (f i) arguments) U.outputs)
    (hfirst : ∀ e, S.errors e → U.errors e) (hsecond : ∀ e, T.errors e → U.errors e)
    (hstrays : ∀ r, S.strays r → U.strays r) (hstrays' : ∀ r, T.strays r → U.strays r) :
    L.Fits X U fun i => Rule.apply (invoke i) (p i) (q i) := by
  intro input hinput
  refine L.bind (hp input hinput) ?_
  intro r hr
  rcases hr with @⟨middle, f, hmiddle, hf⟩ | @⟨rest, e, hrest, he⟩ | ⟨hs, hr⟩
  · simp only [Value.isTrue_success, if_true, Value.rest_success, pure_bind]
    refine L.bind (hq middle (X.inputs_of_leaves hinput hmiddle)) ?_
    intro r hr
    rcases hr with @⟨rest, v, hrest, hv⟩ | @⟨rest, e, hrest, he⟩ | ⟨hs, hr⟩
    · simp only [Value.isTrue_success, if_true, Value.rest_success, Value.output_success,
        pure_bind]
      have happly : L.Holds (fun i => ((v i).iterate >>= fun arguments =>
          invoke i (f i) arguments) >>= fun w => ParserCombinators.accept (rest i) w)
          (Reply X U input) :=
        L.bind (houtputs f v hf hv) fun w hw => accept (X.trans hmiddle hrest) hw
      simpa only [bind_assoc] using happly
    · simp only [Value.isTrue_failure, Bool.false_eq_true, if_false]
      exact L.pure (.failure (X.trans hmiddle hrest) (hsecond e he))
    · exact hr.cases L (fun _ => hr.bind_rest L _) fun _ => L.pure (.stray (hstrays' _ hs) hr)
  · simp only [Value.isTrue_failure, Bool.false_eq_true, if_false]
    exact L.pure (.failure hrest (hfirst e he))
  · exact hr.cases L (fun _ => hr.bind_rest L _) fun _ => L.pure (.stray (hstrays _ hs) hr)

end ParserCombinators.Run.Logic
