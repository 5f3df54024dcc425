import ParserCombinators.Proofs.Depth
import ParserCombinators.Proofs.Handles.Alike

/-!
Alike grammars run alike: at every depth they end the same way, with the same
result and the same calls of counted parsers. Only a log line may be worded
differently, since it may show the name of a parser.
-/

namespace ParserCombinators

open Run Run.Logic

/-- An event without the wording of a log line. -/
def Event.unworded : Event → Event
  | .log _ => .log []
  | .call id input => .call id input

/-- Two runs that do the same but for the wording of log lines. -/
def Run.Logic.agreeing : Logic Bool := Logic.comparing False Event.unworded

namespace Run.Logic

theorem bind_shared {α β : Type} (r : Run α) {f : Bool → α → Run β} {Q : (Bool → β) → Prop}
    (hf : ∀ a, r.Returns a → agreeing.Holds (fun b => f b a) Q) :
    agreeing.Holds (fun b => r >>= f b) Q :=
  agreeing.bind (P := fun c => ∃ a, r.Returns a ∧ c = fun _ => a)
    (holds_shared r fun a ha => ⟨a, ha, rfl⟩) (by rintro _ ⟨a, ha, rfl⟩; exact hf a ha)

theorem fits_shared (p : Rule) : agreeing.Fits .same .same fun _ => p := by
  intro a ha
  obtain ⟨input, -, rfl⟩ := ha
  exact holds_shared (p input) fun r _ => reply_same r

/-- What holds of the two runs one by one holds of them as a family. -/
theorem holds_both {α : Type} {r s : Bool → Run α} {Q : (Bool → α) → Prop}
    (hs : agreeing.Holds s Q) (hfalse : r false = s false) (htrue : r true = s true) :
    agreeing.Holds r Q := by
  refine agreeing.congr (fun b => ?_) hs
  cases b with
  | false => exact hfalse
  | true => exact htrue

theorem Fits.both {p q : Bool → Rule} (hq : agreeing.Fits .same .same q)
    (hfalse : p false = q false) (htrue : p true = q true) : agreeing.Fits .same .same p :=
  fun input hinput => holds_both (hq input hinput) (congrFun hfalse _) (congrFun htrue _)

/-- Lines that are logged on both sides agree, whatever they say. -/
theorem holds_log (line : Bool → Text) {Q : (Bool → Unit) → Prop} (hQ : Q fun _ => ()) :
    agreeing.Holds (fun b => Run.log (line b)) Q := by
  intro made
  exact .inr ⟨fun b => [.log (line b)], made, rfl, .inr ⟨fun _ => (), hQ, fun _ => rfl⟩⟩

end Run.Logic

section Chosen

/-- What two functions return to go on with. -/
def Chosen (w : Bool → Value) : Prop := w false = w true ∨ Value.Alike (w false) (w true)

theorem Grammar.Alike.toValue {g g' : Grammar} (identity : Nat) (h : Grammar.Alike g g') :
    Chosen fun b => (cond b g' g).toValue identity := by
  cases h with
  | closed hg => exact .inl rfl
  | leaf hl =>
    cases hl with
    | closed hl => exact .inl rfl
    | value hv => exact .inr hv
    | element hitem herror => exact .inr (.parser (.leaf (.element hitem herror)))
  | wrap hw hg => exact .inr (.parser (.wrap hw hg))
  | join hj hg hh => exact .inr (.parser (.join hj hg hh))
  | surroundedBy hg hleft hright => exact .inr (.parser (.surroundedBy hg hleft hright))
  | ref x => exact .inl rfl
  | recursive hbody => exact .inr (.parser (.recursive hbody))
  | recursiveEager => exact .inr (.parser .recursiveEager)
  | handle hbody => exact .inr (.parser (.handle hbody))
  | opened hbody => exact .inr (.parser (.opened hbody))

theorem Choice.Alike.find (v : Value) : ∀ {c c' : Choice}, Choice.Alike c c' →
    Chosen fun b => (cond b c' c).find v
  | _, _, .otherwise hg => hg.toValue _
  | .when key identity g next, .when _ _ g' next', .when _ hg hnext => by
    by_cases hkey : key.equals v = true
    · have h := hg.toValue identity
      simpa only [Chosen, cond_false, cond_true, Choice.find, if_pos hkey] using h
    · have h := Choice.Alike.find v hnext
      simpa only [Chosen, cond_false, cond_true, Choice.find, if_neg hkey] using h

/-- A number of repetitions holds no name. -/
theorem Value.closed_of_toCount {v : Value} {n : Nat} (h : v.toCount.Returns n) : v.Closed := by
  intro x s
  obtain ⟨n, hn, -⟩ := h.of_bind
  have hint := returns_ofOption.mp hn
  cases v with
  | bool b => rfl
  | int n => rfl
  | _ => cases hint

theorem Callback.applyAll_append (functions : List Callback) (f : Callback) (v : Value) :
    Callback.applyAll (functions ++ [f]) v =
      Callback.applyAll functions v >>= fun w => f.apply [w] := by
  induction functions generalizing v with
  | nil => simp [Callback.applyAll]
  | cons g functions ih => simp [Callback.applyAll, ih]

/-- Alike parsers repeated as often as a value says. -/
theorem holds_make_counted {v : Value} {w : Wrapper} {g g' : Grammar} (hw : v.Closed → w.Closed)
    (hg : Grammar.Alike g g') :
    agreeing.Holds (fun b => do
      let _ ← v.toCount
      v.requireWritable
      Grammar.make (.wrap w (cond b g' g))) Chosen := by
  refine bind_shared _ fun n hn => bind_shared _ fun _ _ => bind_shared newIdentity fun i _ => ?_
  refine agreeing.pure (.inr ?_)
  exact .parser (.wrap (.closed (hw (Value.closed_of_toCount hn))) hg)

theorem Callback.Alike.holds_apply (v : Value) : ∀ {f f' : Callback}, Callback.Alike f f' →
    agreeing.Holds (fun b => (cond b f' f).apply [v]) Chosen
  | f, _, .closed _ => holds_both (holds_shared (f.apply [v]) fun _ _ => .inl rfl) rfl rfl
  | .const w, .const w', .const hw =>
    holds_both (s := fun b => pure (cond b w' w)) (agreeing.pure (.inr hw)) rfl rfl
  | _, _, @Callback.Alike.compose functions f f' _ hf =>
    holds_both (s := fun b => Callback.applyAll functions v >>= fun w => (cond b f' f).apply [w])
      (bind_shared _ fun w _ => hf.holds_apply w) (Callback.applyAll_append functions f v)
      (Callback.applyAll_append functions f' v)
  | .named _ f, .named _ f', .named hf =>
    holds_both (s := fun b => (cond b f' f).apply [v]) (hf.holds_apply v) rfl rfl
  | .parser i g, .parser _ g', .parser hg =>
    holds_both (s := fun b => pure ((cond b g' g).toValue i)) (agreeing.pure (hg.toValue i)) rfl rfl
  | .select choice, .select choice', .select hchoice =>
    holds_both (s := fun b => pure ((cond b choice' choice).find v))
      (agreeing.pure (hchoice.find v)) rfl rfl
  | .exactlyOf _ error, _, .exactlyOf hg herror =>
    have hw : v.Closed → (Wrapper.exactly v error).Closed :=
      fun hv x s => by rw [Wrapper.subst, hv x s, herror x s]
    holds_both (holds_make_counted hw hg) rfl rfl
  | .atLeastOf _ error, _, .atLeastOf hg herror =>
    have hw : v.Closed → (Wrapper.atLeast v error).Closed :=
      fun hv x s => by rw [Wrapper.subst, hv x s, herror x s]
    holds_both (holds_make_counted hw hg) rfl rfl

end Chosen

section Rules

/-- Recursive parsers with alike bodies unfold to alike grammars. -/
theorem Grammar.alike_unfold {x : Text} {body body' : Grammar} (h : Grammar.Alike body body') :
    Grammar.Alike (Grammar.unfold x body) (Grammar.unfold x body') :=
  Grammar.Alike.subst (.handle h) h

variable {call : Grammar → Rule}
  (hcall : ∀ {g g' : Grammar}, Grammar.Alike g g' →
    agreeing.Fits .same .same fun b => call (cond b g' g))

include hcall

theorem holds_toRule {w : Bool → Value} (hw : Chosen w) :
    agreeing.Holds (fun b => (w b).toRule call) (agreeing.Fits .same .same) := by
  have hshared : ∀ v : Value, agreeing.Holds (fun _ => v.toRule call) (agreeing.Fits .same .same) :=
    fun v => holds_shared (v.toRule call) fun p _ => fits_shared p
  have hpair : w = fun b => cond b (w true) (w false) := funext (by rintro (_ | _) <;> rfl)
  rw [hpair]
  rcases hw with heq | hw
  · rw [heq]
    exact holds_both (hshared (w true)) rfl rfl
  · generalize w false = v, w true = v' at hw
    cases hw with
    | closed hv => exact holds_both (hshared v) rfl rfl
    | @parser i g g' hg =>
      exact holds_both (s := fun b => pure (call (cond b g' g))) (agreeing.pure (hcall hg)) rfl rfl

/-- Alike functions choose parsers that agree. -/
theorem holds_choose_alike {f f' : Callback} (hf : Callback.Alike f f') (v : Value) :
    agreeing.Holds (fun b => (cond b f' f).choose call v) (agreeing.Fits .same .same) :=
  agreeing.bind (hf.holds_apply v) fun _ hw => holds_toRule hcall hw

theorem fits_leaf_alike : ∀ {l l' : Leaf}, Leaf.Alike l l' →
    agreeing.Fits .same .same fun b => (cond b l' l).rule call
  | l, _, .closed _ => (fits_shared (l.rule call)).both rfl rfl
  | .value v, _, .value (.closed _) =>
    (fits_shared ((Leaf.value v).rule call)).both rfl rfl
  | .value (.parser i g), .value (.parser _ g'), .value (.parser hg) =>
    (hcall hg).both rfl rfl
  | .element item error, _, .element (.closed _) _ =>
    (fits_shared ((Leaf.element item error).rule call)).both rfl rfl
  | .element (.parser i g) error, .element (.parser _ g') _, .element (.parser hg) _ => by
    have htested : agreeing.Fits .same .same fun b =>
        Rule.element ((Value.parser i (cond b g' g)).accepts call) error := by
      refine fits_tested (fun _ => rfl) fun v => ?_
      have hinput : (Scope.same (ι := Bool)).inputs fun _ => v := uniform_const trivial
      exact agreeing.weaken (hcall hg _ hinput) fun r hr =>
        uniform_reply Scope.ordinary_same hinput hr
    exact htested.both rfl rfl

theorem fits_wrap_alike {w w' : Wrapper} {g g' : Grammar} {p : Bool → Rule}
    (hw : Wrapper.Alike w w') (hp : agreeing.Fits .same .same p) :
    agreeing.Fits .same .same fun b => (cond b w' w).rule call (cond b g' g) (p b) := by
  have hchoose : ∀ {f f' : Callback}, Callback.Alike f f' → ∀ v : Value,
      agreeing.Holds (fun b => (cond b f' f).choose call v) (agreeing.Fits .same .same) :=
    holds_choose_alike hcall
  cases hw with
  | closed hw =>
    by_cases hplain : w.chooses = false
    · have hrule : agreeing.Fits .same .same fun b => w.rule call (cond b g' g) (p b) :=
        fits_wrapper Scope.ordinary_same hplain (fun n => holds_log _ trivial) hp
      exact hrule.both rfl rfl
    · cases w with
      | recoverWith f =>
        have hf : f.Closed := fun x s => Wrapper.recoverWith.inj (hw x s)
        exact (hp.recoverWith_same (hchoose (.closed hf))).both rfl rfl
      | andThen f =>
        have hf : f.Closed := fun x s => Wrapper.andThen.inj (hw x s)
        exact (hp.andThen_same (hchoose (.closed hf))).both rfl rfl
      | bind f h =>
        have hf : f.Closed := fun x s => (Wrapper.bind.inj (hw x s)).1
        have hh : h.Closed := fun x s => (Wrapper.bind.inj (hw x s)).2
        exact (hp.bind_same (hchoose (.closed hf)) (hchoose (.closed hh))).both rfl rfl
      | _ => exact absurd rfl hplain
  | recoverWith hf => exact (hp.recoverWith_same (hchoose hf)).both rfl rfl
  | andThen hf => exact (hp.andThen_same (hchoose hf)).both rfl rfl
  | bind hf hh => exact (hp.bind_same (hchoose hf) (hchoose hh)).both rfl rfl

/-- Alike grammars agree if calls of alike grammars do. -/
theorem fits_alike : ∀ {g g' : Grammar}, Grammar.Alike g g' →
    agreeing.Fits .same .same fun b => (cond b g' g).rule call
  | g, _, .closed _ => (fits_shared (g.rule call)).both rfl rfl
  | _, _, .leaf hl => (fits_leaf_alike hcall hl).both rfl rfl
  | _, _, .wrap hw hg =>
    (fits_wrap_alike hcall hw (fits_alike hg)).both rfl rfl
  | .join j g h, .join _ g' h', .join _ hg hh => by
    have hjoint : agreeing.Fits .same .same fun b =>
        j.rule call ((cond b g' g).rule call) ((cond b h' h).rule call) := by
      by_cases hj : j = .apply
      · subst hj
        refine (fits_alike hg).apply (fits_alike hh) ?_ (fun _ he => he) (fun _ he => he)
          (fun _ hr => hr) fun _ hr => hr
        intro a b ha hb
        obtain ⟨f, -, rfl⟩ := ha
        obtain ⟨v, -, rfl⟩ := hb
        exact holds_shared _ fun w _ => uniform_const trivial
      · exact fits_joint Scope.ordinary_same hj (fits_alike hg) (fits_alike hh)
    exact hjoint.both rfl rfl
  | .surroundedBy g left right, .surroundedBy g' left' right', .surroundedBy hg hleft hright =>
    (fits_surroundedBy (fits_alike hg) (fits_alike hleft) (fits_alike hright)).both rfl rfl
  | .ref x, _, .ref _ =>
    (fits_shared ((Grammar.ref x).rule call)).both rfl rfl
  | .recursive x body, .recursive _ body', .recursive hbody =>
    (hcall (Grammar.alike_unfold hbody)).both rfl rfl
  | .recursiveEager .., .recursiveEager .., .recursiveEager =>
    (fits_shared fun _ => Run.fail .unwired).both rfl rfl
  | .handle x body, .handle _ body', .handle hbody =>
    (hcall (Grammar.alike_unfold hbody)).both rfl rfl
  | .handle x body, .recursive _ body', .opened hbody =>
    (hcall (Grammar.alike_unfold hbody)).both rfl rfl

end Rules

namespace Grammar

/-- Alike grammars agree at every depth. -/
theorem Alike.fits_run (d : Nat) : ∀ {g g' : Grammar}, Alike g g' →
    agreeing.Fits .same .same fun b => (cond b g' g).run d := by
  induction d with
  | zero =>
    intro g g' h
    have hrule : agreeing.Fits .same .same fun b => (cond b g' g).rule (callAt 0) :=
      fits_alike (fun _ => fits_shared _) h
    exact hrule.congr fun b _ => by rw [run_eq]
  | succ d ih =>
    intro g g' h
    have hrule : agreeing.Fits .same .same fun b => (cond b g' g).rule (callAt (d + 1)) :=
      fits_alike ih h
    exact hrule.congr fun b _ => by rw [run_eq]

end Grammar

/-- Two traces that differ at most in the wording of log lines. -/
structure Trace.Agrees {α : Type} (t t' : Trace α) : Prop where
  events : t.events.map Event.unworded = t'.events.map Event.unworded
  made : t.made = t'.made
  result : t.result = t'.result

theorem Trace.Agrees.refl {α : Type} (t : Trace α) : t.Agrees t := ⟨rfl, rfl, rfl⟩

theorem Grammar.Alike.run_agrees {g g' : Grammar} (h : Grammar.Alike g g') (d : Nat)
    (input : Value) (made : Nat) : (g.run d input made).Agrees (g'.run d input made) := by
  have hinput : (Scope.same (ι := Bool)).inputs fun _ => input := uniform_const trivial
  rcases h.fits_run d _ hinput made with
    ⟨hfalse, -⟩ | ⟨events, made', hview, ⟨e, hend⟩ | ⟨r, hr, hend⟩⟩
  · exact hfalse.elim
  · have hfirst : g.run d input made = ⟨events false, made', .error e⟩ := hend false
    have hsecond : g'.run d input made = ⟨events true, made', .error e⟩ := hend true
    rw [hfirst, hsecond]
    exact ⟨hview, rfl, rfl⟩
  · obtain ⟨v, -, rfl⟩ := uniform_reply Scope.ordinary_same hinput hr
    have hfirst : g.run d input made = ⟨events false, made', .ok v⟩ := hend false
    have hsecond : g'.run d input made = ⟨events true, made', .ok v⟩ := hend true
    rw [hfirst, hsecond]
    exact ⟨hview, rfl, rfl⟩

end ParserCombinators
