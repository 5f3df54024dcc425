import ParserCombinators.Proofs.Bracketing
import ParserCombinators.Proofs.Reporting
import ParserCombinators.Rule.Bind

/-!
Everything that runs one parser after another can be put in terms of `bind`, and
going on with functions that choose parsers is associative, with `pure` as its
neutral element; recovering is so with `fail`. A parser that is made in the middle
of a parse takes the value it is made from into its name. Where that value cannot be
written the parse ends, and that is the only difference between the two sides.
-/

namespace ParserCombinators

open Run Bracketing.threeLetters

section LooksAs

variable {α β : Type}

/-- Runs with the same events and the same result. Only the number of parsers that they
make may differ, which nobody sees. -/
def Run.LooksAs (r s : Run α) : Prop :=
  ∀ made, (r made).events = (s made).events ∧ (r made).result = (s made).result

namespace Run.LooksAs

variable {r s : Run α} {f g : α → Run β}

theorem refl (r : Run α) : r.LooksAs r := fun _ => ⟨rfl, rfl⟩

theorem symm (h : r.LooksAs s) : s.LooksAs r := fun made => ⟨(h made).1.symm, (h made).2.symm⟩

theorem bind_congr (h : ∀ a, r.Returns a → (f a).LooksAs (g a)) :
    (r >>= f).LooksAs (r >>= g) := by
  intro made
  rcases hr : r made with ⟨events, made', e | a⟩
  · rw [bind_apply_error hr, bind_apply_error hr]
    exact ⟨rfl, rfl⟩
  · obtain ⟨hevents, hresult⟩ := h a ⟨made, by rw [hr]⟩ made'
    rw [bind_apply_ok hr, bind_apply_ok hr, hevents]
    exact ⟨rfl, hresult⟩

theorem newIdentity_bind (a : α) : (newIdentity >>= fun _ => Pure.pure a).LooksAs (Pure.pure a) :=
  fun _ => ⟨rfl, rfl⟩

end Run.LooksAs

end LooksAs

namespace Value

/-- The output of a success must be writable. -/
def requireWritableOutput : Value → Run Unit
  | success _ v => v.requireWritable
  | _ => pure ()

/-- The error of a failure must be writable. -/
def requireWritableError : Value → Run Unit
  | failure _ e => e.requireWritable
  | _ => pure ()

theorem isWritable_int {n : Int} : (int n).isWritable = true ↔ n.natAbs < Text.tooLong := by
  rw [isWritable, decide_eq_true_iff]

end Value

namespace Rule

variable {p q : Rule} {input rest v e : Value} {depth : Nat}

/-- Rules that look the same on every input. -/
def LooksAs (p q : Rule) : Prop := ∀ input, (p input).LooksAs (q input)

/-- The function `pure`, in a parse in which calls may nest so deep. -/
def choosePure (depth : Nat) : Value → Run Rule := Callback.pureOf.choose (Grammar.run depth)

/-- The function `fail`, in a parse in which calls may nest so deep. -/
def chooseFail (depth : Nat) : Value → Run Rule := Callback.failOf.choose (Grammar.run depth)

/-- The rule, but something is required of its replies. -/
def requiring (required : Value → Run Unit) (p : Rule) : Rule := fun input => do
  let r ← p input
  required r
  pure r

/-- The rule, but a match whose output cannot be written is a fault. -/
def writingOutputs (p : Rule) : Rule := p.requiring Value.requireWritableOutput

/-- The rule, but a mismatch whose error cannot be written is a fault. -/
def writingErrors (p : Rule) : Rule := p.requiring Value.requireWritableError

/-- A function that makes a leaf of its argument, which becomes part of the name. -/
theorem choose_eq_of_make {f : Callback} {l : Leaf}
    (hf : f.apply [v] = v.requireWritable >>= fun _ => Grammar.make (.leaf l)) :
    f.choose (Grammar.run depth) v = v.requireWritable >>= fun _ =>
      newIdentity >>= fun _ => pure ((Grammar.leaf l).run depth) := by
  simp only [Callback.choose, hf, Grammar.make, bind_assoc, pure_bind]
  rfl

theorem choosePure_eq (depth : Nat) (v : Value) : choosePure depth v =
    v.requireWritable >>= fun _ => newIdentity >>= fun _ => pure (always v) := by
  rw [choosePure, choose_eq_of_make (l := .always v) rfl, Grammar.run_leaf]
  rfl

theorem chooseFail_eq (depth : Nat) (e : Value) : chooseFail depth e =
    e.requireWritable >>= fun _ => newIdentity >>= fun _ => pure (never e) := by
  rw [chooseFail, choose_eq_of_make (l := .never e) rfl, Grammar.run_leaf]
  rfl

/-- A parser made by `pure` replies as the rule does, once its name is written. -/
theorem choosePure_then (depth : Nat) (v rest : Value) :
    (choosePure depth v >>= fun q => q rest).LooksAs (do
      v.requireWritable
      accept rest v) := by
  simp only [choosePure_eq, bind_assoc, pure_bind]
  exact LooksAs.bind_congr fun _ _ => LooksAs.newIdentity_bind _

theorem chooseFail_then (depth : Nat) (e rest : Value) :
    (chooseFail depth e >>= fun q => q rest).LooksAs (do
      e.requireWritable
      reject rest e) := by
  simp only [chooseFail_eq, bind_assoc, pure_bind]
  exact LooksAs.bind_congr fun _ _ => LooksAs.newIdentity_bind _

theorem choosePure_fails (hv : v.isWritable = false) :
    choosePure depth v = Run.fail .badValue := by
  rw [choosePure_eq, Value.requireWritable_fails hv]
  rfl

theorem bind_congr_of_outcomes (hp : p.RepliesOutcomes) {f g : Value → Run Value}
    (hsuccess : ∀ rest v, f (.success rest v) = g (.success rest v))
    (hfailure : ∀ rest e, f (.failure rest e) = g (.failure rest e)) :
    p input >>= f = p input >>= g :=
  bind_congr_of_returns fun _ hr => hp.of_returns (P := fun r => f r = g r) hr hsuccess hfailure

theorem looksAs_of_outcomes (hp : p.RepliesOutcomes) {f g : Value → Run Value}
    (hsuccess : ∀ rest v, (f (.success rest v)).LooksAs (g (.success rest v)))
    (hfailure : ∀ rest e, (f (.failure rest e)).LooksAs (g (.failure rest e))) :
    (p input >>= f).LooksAs (p input >>= g) :=
  LooksAs.bind_congr fun _ hr =>
    hp.of_returns (P := fun r => (f r).LooksAs (g r)) hr hsuccess hfailure

section Binding

variable {f g : Value → Run Rule}

theorem andThen_looksAs_bind (hp : p.RepliesOutcomes) :
    (p.writingErrors.andThen f).LooksAs (p.bind f (chooseFail depth)) := by
  intro input
  simp only [andThen, writingErrors, requiring, bind_assoc, Rule.bind]
  refine looksAs_of_outcomes hp (fun rest v => ?_) fun rest e => ?_
  · exact .refl _
  · exact (chooseFail_then depth e rest).symm

theorem recoverWith_looksAs_bind (hp : p.RepliesOutcomes) :
    (p.writingOutputs.recoverWith g).LooksAs (p.backtrack.bind (choosePure depth) g) := by
  intro input
  simp only [recoverWith, writingOutputs, requiring, backtrack, bind_assoc, Rule.bind]
  refine looksAs_of_outcomes hp (fun rest v => ?_) fun rest e => ?_
  · exact (choosePure_then depth v rest).symm
  · exact .refl _

theorem seq_eq_andThen (hp : p.RepliesOutcomes) (hq : q.RepliesOutcomes) :
    p.seq q = (p.mapError Callback.left.map).andThen fun x =>
      pure ((q.map fun y => pure (.tuple [x, y])).mapError Callback.right.map) := by
  funext input
  simp only [seq, andThen, mapError, map, bind_assoc, pure_bind]
  refine bind_congr_of_outcomes hp (fun rest v => ?_) fun rest e => rfl
  refine bind_congr_of_outcomes hq (fun rest w => rfl) fun rest e => rfl

theorem alt_looksAs_bind (hp : p.RepliesOutcomes) (hq : q.RepliesOutcomes) :
    (p.writingOutputs.alt q).LooksAs
      (p.backtrack.bind (fun x => choosePure depth (.branch .left x)) fun e =>
        pure ((q.map Callback.right.map).mapError fun d => pure (.tuple [e, d])).backtrack) := by
  intro input
  simp only [alt, writingOutputs, requiring, backtrack, bind_assoc, pure_bind, Rule.bind, mapError,
    map]
  refine looksAs_of_outcomes hp (fun rest v => ?_) fun rest e => ?_
  · exact (choosePure_then depth (.branch .left v) rest).symm
  · refine looksAs_of_outcomes hq (fun rest w => ?_) fun rest d => ?_
    · exact .refl _
    · exact .refl _

theorem maybe_looksAs_recoverWith (hp : p.RepliesOutcomes) :
    p.maybe.LooksAs (p.recoverWith fun _ => choosePure depth .none) := by
  intro input
  simp only [maybe, recoverWith]
  refine looksAs_of_outcomes hp (fun rest v => ?_) fun rest e => ?_
  · exact .refl _
  · exact (choosePure_then depth .none input).symm

theorem apply_eq_andThen (invoke : Value → List Value → Run Value) (hp : p.RepliesOutcomes)
    (hq : q.RepliesOutcomes) :
    apply invoke p q = p.andThen fun f => pure (q.map fun a => (do
      let arguments ← a.iterate
      invoke f arguments)) := by
  funext input
  simp only [apply, andThen, map, bind_assoc, pure_bind]
  refine bind_congr_of_outcomes hp (fun rest v => ?_) fun rest e => rfl
  refine bind_congr_of_outcomes hq (fun rest w => ?_) fun rest e => rfl
  rfl

end Binding

section Laws

variable {f g : Value → Run Rule}

theorem always_andThen (x : Value) : (always x).andThen f = fun input => (do
    let q ← f x
    q input) := rfl

theorem andThen_pure_looksAs (hp : p.RepliesOutcomes) :
    p.writingOutputs.LooksAs (p.andThen (choosePure depth)) := by
  intro input
  refine looksAs_of_outcomes hp (fun rest v => ?_) fun rest e => ?_
  · exact (choosePure_then depth v rest).symm
  · exact .refl _

theorem andThen_andThen : (p.andThen f).andThen g = p.andThen fun x => (do
    let q ← f x
    pure (q.andThen g)) := by
  funext input
  simp only [andThen, bind_assoc]
  refine congrArg _ (funext fun r => ?_)
  by_cases hr : r.isTrue = true
  · simp only [if_pos hr, bind_assoc, pure_bind]
    rfl
  · simp only [if_neg hr, pure_bind]

theorem never_recoverWith (e : Value) : (never e).recoverWith g = fun input => (do
    let q ← g e
    q input) := rfl

theorem recoverWith_fail_looksAs (hp : p.RepliesOutcomes) :
    p.writingErrors.backtrack.LooksAs (p.recoverWith (chooseFail depth)) := by
  intro input
  simp only [writingErrors, requiring, backtrack, recoverWith, bind_assoc, pure_bind]
  refine looksAs_of_outcomes hp (fun rest v => ?_) fun rest e => ?_
  · exact .refl _
  · exact (chooseFail_then depth e input).symm

theorem recoverWith_recoverWith : (p.recoverWith f).recoverWith g = p.recoverWith fun e => (do
    let q ← f e
    pure (q.recoverWith g)) := by
  funext input
  simp only [recoverWith, bind_assoc]
  refine congrArg _ (funext fun r => ?_)
  by_cases hr : r.isTrue = true
  · simp only [if_pos hr, pure_bind]
  · simp only [if_neg hr, bind_assoc, pure_bind]
    rfl

end Laws

section Requiring

variable {required : Value → Run Unit} {made made' : Nat} {events : List Event}

theorem requiring_eq (h : ∀ input r, (p input).Returns r → required r = pure ()) :
    p.requiring required = p := by
  funext input
  refine Eq.trans (bind_congr_of_returns fun r hr => ?_) (bind_pure _)
  rw [h input r hr]
  rfl

theorem requiring_fails {r : Value} {fault : Fault} (h : p input made = ⟨events, made', .ok r⟩)
    (hr : required r = Run.fail fault) :
    p.requiring required input made = ⟨events, made', .error fault⟩ := by
  rw [requiring, bind_apply_ok h, hr]
  exact Trace.ext (List.append_nil events) rfl rfl

/-- Nothing changes if all outputs can be written. -/
theorem writingOutputs_eq (h : ∀ input rest v, (p input).Returns (.success rest v) →
    v.isWritable = true) : p.writingOutputs = p := by
  refine requiring_eq fun input r hr => ?_
  cases r with
  | success rest v => exact Value.requireWritable_of_isWritable (h input rest v hr)
  | _ => rfl

theorem writingErrors_eq (h : ∀ input rest e, (p input).Returns (.failure rest e) →
    e.isWritable = true) : p.writingErrors = p := by
  refine requiring_eq fun input r hr => ?_
  cases r with
  | failure rest e => exact Value.requireWritable_of_isWritable (h input rest e hr)
  | _ => rfl

theorem writingOutputs_fails (h : p input made = ⟨events, made', .ok (.success rest v)⟩)
    (hv : v.isWritable = false) :
    p.writingOutputs input made = ⟨events, made', .error .badValue⟩ :=
  requiring_fails h (Value.requireWritable_fails hv)

theorem writingErrors_fails (h : p input made = ⟨events, made', .ok (.failure rest e)⟩)
    (he : e.isWritable = false) :
    p.writingErrors input made = ⟨events, made', .error .badValue⟩ :=
  requiring_fails h (Value.requireWritable_fails he)

end Requiring

/-- What the sequential combinators are in terms of `bind`, and the laws of going on and
of recovering. They hold for all rules that reply with outcomes and for all functions
that choose rules, but where `pure` or `fail` is given what a rule has replied, that has
to be writable. -/
theorem sequencing_is_binding (hp : p.RepliesOutcomes) (hq : q.RepliesOutcomes)
    (f g : Value → Run Rule) (invoke : Value → List Value → Run Value) (x : Value) (depth : Nat) :
    ((p.writingErrors.andThen f).LooksAs (p.bind f (chooseFail depth)) ∧
      (p.writingOutputs.recoverWith g).LooksAs (p.backtrack.bind (choosePure depth) g) ∧
      p.seq q = ((p.mapError Callback.left.map).andThen fun x =>
        pure ((q.map fun y => pure (.tuple [x, y])).mapError Callback.right.map)) ∧
      (p.writingOutputs.alt q).LooksAs
        (p.backtrack.bind (fun x => choosePure depth (.branch .left x)) fun e =>
          pure ((q.map Callback.right.map).mapError fun d => pure (.tuple [e, d])).backtrack) ∧
      p.maybe.LooksAs (p.recoverWith fun _ => choosePure depth .none) ∧
      apply invoke p q = p.andThen fun f => pure (q.map fun a => (do
        let arguments ← a.iterate
        invoke f arguments))) ∧
    ((always x).andThen f = (fun input => do
        let r ← f x
        r input) ∧
      p.writingOutputs.LooksAs (p.andThen (choosePure depth)) ∧
      (p.andThen f).andThen g = p.andThen fun v => (do
        let r ← f v
        pure (r.andThen g))) ∧
    ((never x).recoverWith g = (fun input => do
        let r ← g x
        r input) ∧
      p.writingErrors.backtrack.LooksAs (p.recoverWith (chooseFail depth)) ∧
      (p.recoverWith f).recoverWith g = p.recoverWith fun e => (do
        let r ← f e
        pure (r.recoverWith g))) ∧
    (((∀ input rest v, (p input).Returns (.success rest v) → v.isWritable = true) →
        p.writingOutputs = p) ∧
      ∀ input made events made' rest v, p input made = ⟨events, made', .ok (.success rest v)⟩ →
        v.isWritable = false → p.writingOutputs input made = ⟨events, made', .error .badValue⟩) ∧
    ((∀ input rest e, (p input).Returns (.failure rest e) → e.isWritable = true) →
        p.writingErrors = p) ∧
      ∀ input made events made' rest e, p input made = ⟨events, made', .ok (.failure rest e)⟩ →
        e.isWritable = false → p.writingErrors input made = ⟨events, made', .error .badValue⟩ :=
  ⟨⟨andThen_looksAs_bind hp, recoverWith_looksAs_bind hp, seq_eq_andThen hp hq,
      alt_looksAs_bind hp hq, maybe_looksAs_recoverWith hp, apply_eq_andThen invoke hp hq⟩,
    ⟨always_andThen x, andThen_pure_looksAs hp, andThen_andThen⟩,
    ⟨never_recoverWith x, recoverWith_fail_looksAs hp, recoverWith_recoverWith⟩,
    ⟨writingOutputs_eq, fun _ _ _ _ _ _ => writingOutputs_fails⟩,
    writingErrors_eq, fun _ _ _ _ _ _ => writingErrors_fails⟩

/-- A letter, gone on from with `pure` and with a second letter that is missing. -/
theorem sequencing_is_binding_letters :
    ((letter "a").run 0).RepliesOutcomes ∧ ((letter "b").run 0).RepliesOutcomes ∧
      (((letter "a").run 0).andThen (choosePure 0) (.text "ac") 0).result =
        .ok (.success (.text "c") (.text "a")) ∧
      (((letter "a").run 0).seq ((letter "b").run 0) (.text "ac") 0).result =
        .ok (.failure (.text "c") (.branch .right (.text "no b"))) := by
  have hfirst := Bracketing.letter_repliesOutcomes "a" 0
  have hsecond := Bracketing.letter_repliesOutcomes "b" 0
  obtain ⟨⟨-, -, hseq, -⟩, ⟨-, hpure, -⟩, -⟩ :=
    sequencing_is_binding hfirst hsecond (choosePure 0) (chooseFail 0) (fun v _ => pure v) .none 0
  refine ⟨hfirst, hsecond, ?_, ?_⟩
  · rw [← (hpure (.text "ac") 0).2]
    rfl
  · rw [hseq]
    rfl

end Rule

namespace Grammar

/-- A parser that outputs an integer with one digit too many. -/
def surplus : Grammar :=
  wrap (.map (.add (.int 1))) (leaf (.always (.int (Text.tooLong - 1))))

theorem construct_surplus : surplus.construct = pure () := by
  have hmany := Text.one_lt_tooLong
  have hone : (Value.int 1).isWritable = true := Value.isWritable_int.mpr hmany
  have hnines : (Value.int (Text.tooLong - 1)).isWritable = true :=
    Value.isWritable_int.mpr (by omega)
  simp only [surplus, construct, Leaf.construct, Value.construct, Wrapper.construct,
    Callback.construct, Value.requireWritable_of_isWritable hone,
    Value.requireWritable_of_isWritable hnines, pure_bind]
  rfl

theorem run_surplus (depth : Nat) :
    surplus.run depth (.text []) = pure (.success (.text []) (.int Text.tooLong)) := by
  have hadd : (Callback.add (.int 1)).map (.int (Text.tooLong - 1)) =
      pure (.int (Text.tooLong - 1 + 1)) := rfl
  rw [Int.sub_add_cancel] at hadd
  rw [surplus, run_wrap, run_leaf]
  exact Rule.map_of_success rfl hadd

/-- To go on with `pure` is not the same as to stop there. -/
theorem parse_andThen_surplus :
    (surplus.build 0).result = .ok () ∧
      ((wrap (.andThen .pureOf) surplus).build 0).result = .ok () ∧
      (surplus.parse (.text []) 0).result = .ok (.success (.text []) (.int Text.tooLong)) ∧
      ((wrap (.andThen .pureOf) surplus).parse (.text []) 0).result = .error .badValue := by
  have hunwritable : (Value.int Text.tooLong).isWritable = false := by
    rw [Value.isWritable, decide_eq_false_iff_not]
    omega
  have hparse : surplus.parse (.text []) = _ := run_surplus maximalDepth
  refine ⟨?_, ?_, by rw [hparse]; rfl, ?_⟩
  · rw [build, construct_surplus]
    rfl
  · rw [build, construct, construct_surplus]
    rfl
  · have hrun : (wrap (.andThen .pureOf) surplus).parse =
        surplus.parse.andThen (Rule.choosePure (maximalDepth - 1)) := run_wrap ..
    rw [hrun, Rule.andThen, hparse]
    simp only [pure_bind, Value.isTrue_success, Value.output_success,
      Rule.choosePure_fails hunwritable]
    rfl

end Grammar

end ParserCombinators
