import ParserCombinators.Proofs.Reply
import ParserCombinators.Rule.Transform

/-!
The shapes of sequences and alternatives, and of rules whose outputs or errors
are changed. Every lemma takes the shapes of the parts and what they have to
do with the shape of the whole. Of sequences there is a general form in which
the second rule is known only on inputs that the first hands over.
-/

namespace ParserCombinators

/-- Pairs of outputs, and errors under the marker of their side. -/
def Shape.pair {ι : Type} (S T : Shape ι) : Shape ι where
  outputs a := ∃ v w, S.outputs v ∧ T.outputs w ∧ a = fun i => .tuple [v i, w i]
  errors a := (∃ e, S.errors e ∧ a = fun i => .branch .left (e i)) ∨
    ∃ e, T.errors e ∧ a = fun i => .branch .right (e i)
  strays _ := False

namespace Value

theorem item_zero_pair (v w : Value) : (tuple [v, w]).item 0 = pure v := rfl

theorem item_one_pair (v w : Value) : (tuple [v, w]).item 1 = pure w := rfl

end Value

namespace Run.Logic

variable {ι : Type} {L : Logic ι} {X Y Z : Scope ι} {S T U V : Shape ι}
  {p q left right : ι → Rule}

theorem HandsOver.seq (hp : L.HandsOver X Y S p) (hq : L.Fits Y T q)
    (hY : ∀ a b, Y.leaves a b → X.leaves a b)
    (houtputs : ∀ v w, S.outputs v → T.outputs w → U.outputs fun i => .tuple [v i, w i])
    (hleft : ∀ e, S.errors e → U.errors fun i => .branch .left (e i))
    (hright : ∀ e, T.errors e → U.errors fun i => .branch .right (e i)) :
    L.Fits X U fun i => (p i).seq (q i) := by
  intro input hinput
  refine L.bind (hp input hinput) ?_
  intro r hr
  rcases hr with @⟨middle, v, hmiddle, hnext, hv⟩ | @⟨rest, e, hrest, he⟩ | ⟨_, hr⟩
  · simp only [Value.isTrue_success, if_true, Value.rest_success, pure_bind]
    refine L.bind (hq middle hnext) ?_
    intro r hr
    rcases hr with @⟨rest, w, hrest, hw⟩ | @⟨rest, e, hrest, he⟩ | ⟨_, hs⟩
    · simp only [Value.isTrue_success, if_true, Value.rest_success, Value.output_success,
        pure_bind]
      exact accept (X.trans hmiddle (hY _ _ hrest)) (houtputs v w hv hw)
    · simp only [Value.isTrue_failure, Bool.false_eq_true, if_false, Value.rest_failure,
        Value.error_failure, pure_bind]
      exact reject (X.trans hmiddle (hY _ _ hrest)) (hright e he)
    · exact hs.cases L (fun _ => hs.bind_rest L _) fun _ => hs.bind_rest L _
  · simp only [Value.isTrue_failure, Bool.false_eq_true, if_false, Value.rest_failure,
      Value.error_failure, pure_bind]
    exact reject hrest (hleft e he)
  · exact hr.cases L (fun _ => hr.bind_rest L _) fun _ => hr.bind_rest L _

theorem Fits.seq (hp : L.Fits X S p) (hq : L.Fits X T q)
    (houtputs : ∀ v w, S.outputs v → T.outputs w → U.outputs fun i => .tuple [v i, w i])
    (hleft : ∀ e, S.errors e → U.errors fun i => .branch .left (e i))
    (hright : ∀ e, T.errors e → U.errors fun i => .branch .right (e i)) :
    L.Fits X U fun i => (p i).seq (q i) :=
  hp.handsOver.seq hq (fun _ _ h => h) houtputs hleft hright

theorem HandsOver.pair (hp : L.HandsOver X Y S p) (hq : L.Fits Y T q)
    (hY : ∀ a b, Y.leaves a b → X.leaves a b) :
    L.Fits X (S.pair T) fun i => (p i).seq (q i) :=
  hp.seq hq hY (fun v w hv hw => ⟨v, w, hv, hw, rfl⟩) (fun e he => .inl ⟨e, he, rfl⟩)
    fun e he => .inr ⟨e, he, rfl⟩

theorem Fits.alt (hp : L.Fits X S p) (hq : L.Fits X T q)
    (hleft : ∀ v, S.outputs v → U.outputs fun i => .branch .left (v i))
    (hright : ∀ v, T.outputs v → U.outputs fun i => .branch .right (v i))
    (herrors : ∀ d e, S.errors d → T.errors e → U.errors fun i => .tuple [d i, e i]) :
    L.Fits X U fun i => (p i).alt (q i) := by
  intro input hinput
  refine L.bind (hp input hinput) ?_
  intro r hr
  rcases hr with @⟨rest, v, hrest, hv⟩ | @⟨_, d, _, hd⟩ | ⟨_, hr⟩
  · simp only [Value.isTrue_success, if_true, Value.rest_success, Value.output_success, pure_bind]
    exact accept hrest (hleft v hv)
  · simp only [Value.isTrue_failure, Bool.false_eq_true, if_false]
    refine L.bind (hq input hinput) ?_
    intro r hr
    rcases hr with @⟨rest, v, hrest, hv⟩ | @⟨_, e, _, he⟩ | ⟨_, hs⟩
    · simp only [Value.isTrue_success, if_true, Value.rest_success, Value.output_success,
        pure_bind]
      exact accept hrest (hright v hv)
    · simp only [Value.isTrue_failure, Bool.false_eq_true, if_false, Value.error_failure,
        pure_bind]
      exact reject (X.refl hinput) (herrors d e hd he)
    · simp only [Value.error_failure, pure_bind]
      exact hs.cases L (fun _ => hs.bind_rest L _) fun _ => hs.bind_error L _
  · refine hr.cases L (fun _ => hr.bind_rest L _) fun _ => ?_
    refine L.bind (hq input hinput) ?_
    intro r hr
    rcases hr with @⟨rest, v, hrest, hv⟩ | ⟨_, _⟩ | ⟨_, hs⟩
    · simp only [Value.isTrue_success, if_true, Value.rest_success, Value.output_success,
        pure_bind]
      exact accept hrest (hright v hv)
    · simp only [Value.isTrue_failure, Bool.false_eq_true, if_false]
      exact hr.bind_error L _
    · exact hs.cases L (fun _ => hs.bind_rest L _) fun _ => hr.bind_error L _

theorem Fits.maybe (hp : L.Fits X S p) (houtputs : ∀ v, S.outputs v → U.outputs v)
    (hnone : U.outputs fun _ => .none) (hstrays : ∀ r, S.strays r → U.strays r) :
    L.Fits X U fun i => (p i).maybe := by
  intro input hinput
  refine L.bind (hp input hinput) ?_
  intro r hr
  rcases hr with @⟨rest, v, hrest, hv⟩ | _ | ⟨hs, hr⟩
  · simp only [Value.isTrue_success, if_true]
    exact L.pure (.success hrest (houtputs v hv))
  · simp only [Value.isTrue_failure, Bool.false_eq_true, if_false]
    exact accept (X.refl hinput) hnone
  · exact hr.cases L (fun _ => L.pure (.stray (hstrays _ hs) hr))
      fun _ => accept (X.refl hinput) hnone

theorem Fits.map {f : ι → Value → Run Value} (hp : L.Fits X S p)
    (hf : ∀ v, S.outputs v → L.Holds (fun i => f i (v i)) U.outputs)
    (herrors : ∀ e, S.errors e → U.errors e) (hstrays : ∀ r, S.strays r → U.strays r) :
    L.Fits X U fun i => (p i).map (f i) := by
  intro input hinput
  refine L.bind (hp input hinput) ?_
  intro r hr
  rcases hr with @⟨rest, v, hrest, hv⟩ | @⟨rest, e, hrest, he⟩ | ⟨hs, hr⟩
  · simp only [Value.isTrue_success, if_true, Value.rest_success, Value.output_success, pure_bind]
    exact L.bind (hf v hv) fun w hw => accept hrest hw
  · simp only [Value.isTrue_failure, Bool.false_eq_true, if_false]
    exact L.pure (.failure hrest (herrors e he))
  · exact hr.cases L (fun _ => hr.bind_rest L _) fun _ => L.pure (.stray (hstrays _ hs) hr)

theorem Fits.mapError {f : ι → Value → Run Value} (hp : L.Fits X S p)
    (houtputs : ∀ v, S.outputs v → U.outputs v)
    (hf : ∀ e, S.errors e → L.Holds (fun i => f i (e i)) U.errors)
    (hstrays : ∀ r, S.strays r → U.strays r) :
    L.Fits X U fun i => (p i).mapError (f i) := by
  intro input hinput
  refine L.bind (hp input hinput) ?_
  intro r hr
  rcases hr with @⟨rest, v, hrest, hv⟩ | @⟨rest, e, hrest, he⟩ | ⟨hs, hr⟩
  · simp only [Value.isTrue_success, if_true]
    exact L.pure (.success hrest (houtputs v hv))
  · simp only [Value.isTrue_failure, Bool.false_eq_true, if_false, Value.rest_failure,
      Value.error_failure, pure_bind]
    exact L.bind (hf e he) fun d hd => reject hrest hd
  · exact hr.cases L (fun _ => L.pure (.stray (hstrays _ hs) hr)) fun _ => hr.bind_rest L _

theorem Fits.fold (hp : L.Fits X S p) (houtputs : ∀ v, S.outputs v → U.outputs v)
    (herrors : ∀ e, S.errors e → L.Holds (fun i => (e i).foldBranch) U.errors)
    (hstrays : ∀ r, S.strays r → U.strays r) : L.Fits X U fun i => (p i).fold :=
  hp.mapError houtputs herrors hstrays

theorem Fits.foldAll (hp : L.Fits X S p) (houtputs : ∀ v, S.outputs v → U.outputs v)
    (herrors : ∀ e, S.errors e → U.errors fun i => (e i).foldAll)
    (hstrays : ∀ r, S.strays r → U.strays r) : L.Fits X U fun i => (p i).foldAll :=
  hp.mapError houtputs (fun e he => L.pure (herrors e he)) hstrays

/-- The first of two outputs, the errors of both without their markers. -/
theorem HandsOver.skip (hp : L.HandsOver X Y S p) (hq : L.Fits Y T q)
    (hY : ∀ a b, Y.leaves a b → X.leaves a b) (houtputs : ∀ v, S.outputs v → U.outputs v)
    (hfirst : ∀ e, S.errors e → U.errors e) (hsecond : ∀ e, T.errors e → U.errors e) :
    L.Fits X U fun i => (p i).skip (q i) := by
  have hpair : L.Fits X ⟨U.outputs, (S.pair T).errors, fun _ => False⟩ fun i =>
      ((p i).seq (q i)).first := by
    refine (hp.pair hq hY).map ?_ (fun e he => he) fun r hr => hr
    intro a ha
    obtain ⟨v, w, hv, hw, rfl⟩ := ha
    exact L.congr (fun i => Value.item_zero_pair (v i) (w i)) (L.pure (houtputs v hv))
  refine hpair.fold (fun v hv => hv) ?_ fun r hr => hr.elim
  intro a ha
  rcases ha with ⟨e, he, rfl⟩ | ⟨e, he, rfl⟩
  · exact L.pure (hfirst e he)
  · exact L.pure (hsecond e he)

/-- The second of two outputs, the errors under their markers. -/
theorem HandsOver.precededBy (hp : L.HandsOver X Y S p) (hq : L.Fits Y T q)
    (hY : ∀ a b, Y.leaves a b → X.leaves a b) (houtputs : ∀ v, T.outputs v → U.outputs v)
    (hbefore : ∀ e, S.errors e → U.errors fun i => .branch .left (e i))
    (herrors : ∀ e, T.errors e → U.errors fun i => .branch .right (e i)) :
    L.Fits X U fun i => (q i).precededBy (p i) := by
  refine (hp.pair hq hY).map ?_ ?_ fun r hr => hr.elim
  · intro a ha
    obtain ⟨v, w, hv, hw, rfl⟩ := ha
    exact L.congr (fun i => Value.item_one_pair (v i) (w i)) (L.pure (houtputs w hw))
  · intro a ha
    rcases ha with ⟨e, he, rfl⟩ | ⟨e, he, rfl⟩
    · exact hbefore e he
    · exact herrors e he

/-- The second of three outputs, the errors under the markers of two sequences. -/
theorem HandsOver.surroundedBy (hseq : L.HandsOver X Y (S.pair T) fun i => (left i).seq (p i))
    (hright : L.Fits Y V right) (hY : ∀ a b, Y.leaves a b → X.leaves a b)
    (houtputs : ∀ v, T.outputs v → U.outputs v)
    (hbefore : ∀ e, S.errors e → U.errors fun i => .branch .left (.branch .left (e i)))
    (herrors : ∀ e, T.errors e → U.errors fun i => .branch .left (.branch .right (e i)))
    (hafter : ∀ e, V.errors e → U.errors fun i => .branch .right (e i)) :
    L.Fits X U fun i => (p i).surroundedBy (left i) (right i) := by
  refine (hseq.pair hright hY).map ?_ ?_ fun r hr => hr.elim
  · intro a ha
    obtain ⟨_, z, ⟨v, w, hv, hw, rfl⟩, hz, rfl⟩ := ha
    refine L.congr (s := fun i => Pure.pure (w i)) (fun i => ?_) (L.pure (houtputs w hw))
    simp only [Rule.middle, Value.item_zero_pair, Value.item_one_pair, pure_bind]
  · intro a ha
    rcases ha with ⟨_, ⟨e, he, rfl⟩ | ⟨e, he, rfl⟩, rfl⟩ | ⟨e, he, rfl⟩
    · exact hbefore e he
    · exact herrors e he
    · exact hafter e he

/-- The test passes on all values of a family or on none. -/
theorem Fits.validate {test : ι → Value → Run Value} {error : ι → Value} (hp : L.Fits X S p)
    (htest : ∀ v, S.reads v → L.Holds (fun i => test i (v i)) fun w =>
      ((∀ i, (w i).isTrue = true) ∧ (S.outputs v → U.outputs v)) ∨ ∀ i, (w i).isTrue = false)
    (herror : U.errors error) (herrors : ∀ e, S.errors e → U.errors e)
    (hstrays : ∀ r, S.strays r → U.strays r) :
    L.Fits X U fun i => (p i).validate (test i) (error i) := by
  intro input hinput
  refine L.bind (hp input hinput) ?_
  intro r hr
  rcases hr with @⟨rest, v, hrest, hv⟩ | @⟨rest, e, hrest, he⟩ | ⟨hs, hr⟩
  · simp only [Value.isTrue_success, if_true, Value.output_success, pure_bind]
    refine L.bind (htest v (.inl hv)) ?_
    intro w hw
    rcases hw with ⟨hpass, hv'⟩ | hrefuse
    · simp only [hpass, if_true]
      exact L.pure (.success hrest (hv' hv))
    · simp only [hrefuse, Bool.false_eq_true, if_false]
      exact reject (X.refl hinput) herror
  · simp only [Value.isTrue_failure, Bool.false_eq_true, if_false]
    exact L.pure (.failure hrest (herrors e he))
  · refine hr.cases L (fun _ => hr.bind_output L fun v hv => ?_)
      fun _ => L.pure (.stray (hstrays _ hs) hr)
    refine L.bind (htest v (.inr ⟨_, hs, hv⟩)) ?_
    intro w hw
    rcases hw with ⟨hpass, _⟩ | hrefuse
    · simp only [hpass, if_true]
      exact L.pure (.stray (hstrays _ hs) hr)
    · simp only [hrefuse, Bool.false_eq_true, if_false]
      exact reject (X.refl hinput) herror

end Run.Logic

end ParserCombinators
