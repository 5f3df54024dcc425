import ParserCombinators.Run

/-!
Reasoning about runs side by side. A logic speaks of a family of runs, one for
each index, that do the same as long as they go on. It says what holds of their
results, and it needs only four rules: for returning, for one run shared by
the whole family, for going on after a run, and that the results are some that
the runs have. Whatever is proved from these
rules holds of single runs, of runs at growing depth and of pairs of runs.
-/

namespace ParserCombinators

/-- The faults that only calls of parsers end in. -/
inductive Fault.OfCall : Fault → Prop
  | unwired : OfCall .unwired
  | tooDeep : OfCall .tooDeep

namespace Run

variable {α β : Type}

/-- A result that a run can have. -/
def Returns (r : Run α) (a : α) : Prop := ∃ made, (r made).result = .ok a

/-- A run that is never broken off by a call, be it nested too deep or a call of a
parser that has no definition yet. -/
def Shallow (r : Run α) : Prop := ∀ made e, (r made).result = .error e → ¬ e.OfCall

/-- `Holds r Q` says of the runs `r` whatever the logic is about, and of their
results, one for each index, that they satisfy `Q` together. -/
structure Logic (ι : Type) where
  Holds {α : Type} : (ι → Run α) → ((ι → α) → Prop) → Prop
  pure {α : Type} {a : ι → α} {Q : (ι → α) → Prop} :
    Q a → Holds (fun i => Pure.pure (a i)) Q
  steady {α : Type} {r : Run α} {Q : (ι → α) → Prop} :
    r.Shallow → (∀ a, r.Returns a → Q fun _ => a) → Holds (fun _ => r) Q
  bind {α β : Type} {r : ι → Run α} {f : ι → α → Run β} {P : (ι → α) → Prop}
    {Q : (ι → β) → Prop} :
    Holds r P → (∀ a, P a → Holds (fun i => f i (a i)) Q) → Holds (fun i => r i >>= f i) Q
  seen {α : Type} {r : ι → Run α} {Q : (ι → α) → Prop} :
    Holds r Q → Holds r fun a => Q a ∧ ∃ i, (r i).Returns (a i)

section Shallow

theorem shallow_pure (a : α) : (pure a : Run α).Shallow := by
  intro made e h
  cases h

theorem shallow_fail {e : Fault} (h : ¬ e.OfCall) : (fail e : Run α).Shallow := by
  intro made e' he
  exact Except.error.inj he ▸ h

theorem shallow_emit (event : Event) : (emit event).Shallow := by
  intro made e h
  cases h

theorem shallow_log (line : Text) : (log line).Shallow := shallow_emit (.log line)

theorem shallow_newIdentity : newIdentity.Shallow := by
  intro made e h
  cases h

theorem shallow_ofOption {e : Fault} {o : Option α} (h : ¬ e.OfCall) :
    (ofOption e o).Shallow := by
  cases o with
  | none => exact shallow_fail h
  | some a => exact shallow_pure a

/-- Only what a run returns matters for what comes after it. -/
theorem shallow_bind_of_returns {r : Run α} {f : α → Run β} (hr : r.Shallow)
    (hf : ∀ a, r.Returns a → (f a).Shallow) : (r >>= f).Shallow := by
  intro made
  rcases h : r made with ⟨events, made', e | a⟩
  · rw [bind_apply_error h]
    intro e' he
    have heq : e = e' := Except.error.inj he
    exact hr made e' (by rw [h, heq])
  · rw [bind_apply_ok h]
    exact hf a ⟨made, by rw [h]⟩ made'

theorem shallow_bind {r : Run α} {f : α → Run β} (hr : r.Shallow)
    (hf : ∀ a, (f a).Shallow) : (r >>= f).Shallow :=
  shallow_bind_of_returns hr fun a _ => hf a

end Shallow

section Returns

theorem returns_pure {a b : α} : (pure a : Run α).Returns b ↔ b = a := by
  constructor
  · intro h
    obtain ⟨made, h⟩ := h
    exact (Except.ok.inj h).symm
  · intro heq
    subst heq
    exact ⟨0, rfl⟩

theorem not_returns_fail {e : Fault} {a : α} : ¬ (fail e : Run α).Returns a := by
  intro h
  obtain ⟨made, h⟩ := h
  cases h

theorem returns_ofOption {e : Fault} {o : Option α} {a : α} :
    (ofOption e o).Returns a ↔ o = some a := by
  cases o with
  | none => simp [ofOption, not_returns_fail]
  | some b => simp [ofOption, returns_pure, eq_comm]

/-- A trace is known if its result is. -/
theorem eq_of_result {t : Trace α} {result : Except Fault α} (h : t.result = result) :
    t = ⟨t.events, t.made, result⟩ := Trace.ext rfl rfl h

/-- What a run returns after another comes from something the other returns. -/
theorem Returns.of_bind {r : Run α} {f : α → Run β} {b : β} (h : (r >>= f).Returns b) :
    ∃ a, r.Returns a ∧ (f a).Returns b := by
  obtain ⟨made, h⟩ := h
  rcases hr : r made with ⟨events, made', e | a⟩
  · rw [bind_apply_error hr] at h
    cases h
  · rw [bind_apply_ok hr] at h
    exact ⟨a, ⟨made, by rw [hr]⟩, made', h⟩

/-- A run that goes on after another has returned goes on from what that returned. -/
theorem eq_ok_of_bind {r : Run α} {f : α → Run β} {made made' : Nat} {events : List Event}
    {b : β} (h : (r >>= f) made = ⟨events, made', .ok b⟩) :
    ∃ first middle a second, r made = ⟨first, middle, .ok a⟩ ∧
      f a middle = ⟨second, made', .ok b⟩ ∧ events = first ++ second := by
  rcases hr : r made with ⟨first, middle, e | a⟩
  · rw [bind_apply_error hr] at h
    cases congrArg Trace.result h
  · rw [bind_apply_ok hr] at h
    have hmade : (f a middle).made = made' := congrArg Trace.made h
    have hresult : (f a middle).result = .ok b := congrArg Trace.result h
    exact ⟨first, middle, a, (f a middle).events, rfl, Trace.ext rfl hmade hresult,
      (congrArg Trace.events h).symm⟩

/-- Runs that go on the same way from whatever is returned are the same. -/
theorem bind_congr_of_returns {r : Run α} {f g : α → Run β} (h : ∀ a, r.Returns a → f a = g a) :
    r >>= f = r >>= g := by
  ext1 made
  rcases hr : r made with ⟨events, made', e | a⟩
  · rw [bind_apply_error hr, bind_apply_error hr]
  · rw [bind_apply_ok hr, bind_apply_ok hr, h a ⟨made, by rw [hr]⟩]

theorem map_apply (f : α → β) (r : Run α) (made : Nat) :
    (f <$> r) made = ⟨(r made).events, (r made).made, (r made).result.map f⟩ := by
  rw [map_eq_pure_bind]
  rcases hr : r made with ⟨events, made', e | a⟩
  · rw [bind_apply_error hr]
    rfl
  · rw [bind_apply_ok hr]
    simp [pure_apply, Except.map]

theorem pure_injective {a b : α} (h : (pure a : Run α) = pure b) : a = b :=
  returns_pure.mp (h ▸ returns_pure.mpr rfl)

end Returns

namespace Logic

variable {ι : Type} (L : Logic ι)

theorem weaken {r : ι → Run α} {P Q : (ι → α) → Prop} (h : L.Holds r P)
    (hPQ : ∀ a, P a → Q a) : L.Holds r Q := by
  have hbind := L.bind (f := fun _ a => Pure.pure a) h fun a ha => L.pure (hPQ a ha)
  simpa only [bind_pure] using hbind

theorem congr {r s : ι → Run α} {Q : (ι → α) → Prop} (hrs : ∀ i, r i = s i)
    (h : L.Holds s Q) : L.Holds r Q := by
  have heq : r = s := funext hrs
  rwa [heq]

theorem fail {e : Fault} {Q : (ι → α) → Prop} (he : ¬ e.OfCall) :
    L.Holds (fun _ => Run.fail e) Q :=
  L.steady (shallow_fail he) fun _ h => absurd h not_returns_fail

theorem bind_fail {e : Fault} {f : ι → α → Run β} {Q : (ι → β) → Prop} (he : ¬ e.OfCall) :
    L.Holds (fun i => Run.fail e >>= f i) Q :=
  L.bind (P := fun _ => False) (L.fail he) fun _ h => absurd h id

/-- The logic has nothing against calls of parsers that have no definition yet. -/
def AllowsUnwired : Prop :=
  ∀ {α : Type} {Q : (ι → α) → Prop}, L.Holds (fun _ => Run.fail .unwired) Q

/-- Going on after a run that is the same for all. -/
theorem bind_steady {r : Run α} {f : ι → α → Run β} {Q : (ι → β) → Prop} (hr : r.Shallow)
    (hf : ∀ a, r.Returns a → L.Holds (fun i => f i a) Q) : L.Holds (fun i => r >>= f i) Q :=
  L.bind (P := fun b => ∃ a, r.Returns a ∧ b = fun _ => a) (L.steady hr fun a ha => ⟨a, ha, rfl⟩)
    (by rintro _ ⟨a, ha, rfl⟩; exact hf a ha)

end Logic

section Instances

/-- A single run. It may be broken off for its depth only if that is `allowed`. -/
def Logic.single (allowed : Prop) : Logic Unit where
  Holds r Q := ∀ made, ((r () made).result = .error .tooDeep → allowed) ∧
    ∀ a, (r () made).result = .ok a → Q fun _ => a
  pure {α a Q} h made := by
    refine ⟨fun hdeep => absurd .tooDeep (shallow_pure (a ()) made _ hdeep), fun b hb => ?_⟩
    have heq : a () = b := Except.ok.inj hb
    exact heq ▸ h
  steady hr hQ made :=
    ⟨fun hdeep => absurd .tooDeep (hr made _ hdeep), fun a ha => hQ a ⟨made, ha⟩⟩
  bind {α β r f P Q} hr hf made := by
    obtain ⟨hdeep, hP⟩ := hr made
    show (((r () >>= f ()) made).result = .error .tooDeep → allowed) ∧
      ∀ b, ((r () >>= f ()) made).result = .ok b → Q fun _ => b
    rcases h : r () made with ⟨events, made', e | a⟩
    · rw [bind_apply_error h]
      rw [h] at hdeep
      refine ⟨fun he => hdeep ?_, fun b hb => by cases hb⟩
      rw [Except.error.inj he]
    · rw [bind_apply_ok h]
      exact hf _ (hP a (by rw [h])) made'
  seen hr made := ⟨(hr made).1, fun a ha => ⟨(hr made).2 a ha, (), made, ha⟩⟩

/-- A single run that may be broken off: only what it returns counts. -/
theorem Logic.holds_single {r : Run α} {Q : (Unit → α) → Prop}
    (h : ∀ a, r.Returns a → Q fun _ => a) : (Logic.single True).Holds (fun _ => r) Q :=
  fun made => ⟨fun _ => trivial, fun a ha => h a ⟨made, ha⟩⟩

theorem Logic.allowsUnwired_single : (Logic.single True).AllowsUnwired :=
  holds_single fun _ h => absurd h not_returns_fail

/-- A single run that does not end in a certain fault of calls. -/
def Logic.avoiding {e : Fault} (he : e.OfCall) : Logic Unit where
  Holds r Q := ∀ made, (r () made).result ≠ .error e ∧
    ∀ a, (r () made).result = .ok a → Q fun _ => a
  pure {α a Q} h made := by
    refine ⟨nofun, fun b hb => ?_⟩
    have heq : a () = b := Except.ok.inj hb
    exact heq ▸ h
  steady hr hQ made := ⟨fun heq => hr made e heq he, fun a ha => hQ a ⟨made, ha⟩⟩
  bind {α β r f P Q} hr hf made := by
    obtain ⟨hne, hP⟩ := hr made
    show ((r () >>= f ()) made).result ≠ .error e ∧
      ∀ b, ((r () >>= f ()) made).result = .ok b → Q fun _ => b
    rcases h : r () made with ⟨events, made', d | a⟩
    · rw [bind_apply_error h]
      rw [h] at hne
      exact ⟨fun hd => hne (by rw [Except.error.inj hd]), nofun⟩
    · rw [bind_apply_ok h]
      exact hf _ (hP a (by rw [h])) made'
  seen hr made := ⟨(hr made).1, fun a ha => ⟨(hr made).2 a ha, (), made, ha⟩⟩

/-- A run of which every depth is a version. From some depth on all versions
do the same and are not broken off. -/
def Logic.settling : Logic Nat where
  Holds r Q := ∀ made, ∃ depth,
    (∃ events made' e, e ≠ Fault.tooDeep ∧
      ∀ d, depth ≤ d → r d made = ⟨events, made', .error e⟩) ∨
    ∃ events made' a, Q a ∧ ∀ d, depth ≤ d → r d made = ⟨events, made', .ok (a d)⟩
  pure {α a Q} h made := ⟨0, Or.inr ⟨[], made, a, h, fun d _ => pure_apply (a d) made⟩⟩
  steady {α r Q} hr hQ made := by
    refine ⟨0, ?_⟩
    rcases h : r made with ⟨events, made', e | a⟩
    · refine Or.inl ⟨events, made', e, ?_, fun d _ => h⟩
      intro heq
      subst heq
      exact hr made .tooDeep (by rw [h]) .tooDeep
    · exact Or.inr ⟨events, made', fun _ => a, hQ a ⟨made, by rw [h]⟩, fun d _ => h⟩
  bind {α β r f P Q} hr hf made := by
    obtain ⟨depth, ⟨events, made', e, he, h⟩ | ⟨events, made', a, ha, h⟩⟩ := hr made
    · exact ⟨depth, Or.inl ⟨events, made', e, he, fun d hd => bind_apply_error (h d hd) (f d)⟩⟩
    · obtain ⟨depth', hf'⟩ := hf a ha made'
      have hbind : ∀ d, max depth depth' ≤ d → ∀ t, f d (a d) made' = t →
          (r d >>= f d) made = ⟨events ++ t.events, t.made, t.result⟩ := by
        intro d hd t heq
        subst heq
        exact bind_apply_ok (h d (by omega)) (f d)
      refine ⟨max depth depth', ?_⟩
      rcases hf' with ⟨events', made'', e, he, h'⟩ | ⟨events', made'', b, hb, h'⟩
      · exact Or.inl ⟨events ++ events', made'', e, he,
          fun d hd => hbind d hd _ (h' d (by omega))⟩
      · exact Or.inr ⟨events ++ events', made'', b, hb,
          fun d hd => hbind d hd _ (h' d (by omega))⟩
  seen hr made := by
    obtain ⟨depth, herror | ⟨events, made', a, ha, h⟩⟩ := hr made
    · exact ⟨depth, Or.inl herror⟩
    · refine ⟨depth, Or.inr ⟨events, made', a, ⟨ha, depth, made, ?_⟩, h⟩⟩
      rw [h depth (Nat.le_refl depth)]

theorem Logic.allowsUnwired_settling : Logic.settling.AllowsUnwired := fun made =>
  ⟨0, .inl ⟨[], made, .unwired, nofun, fun _ _ => rfl⟩⟩

/-- Two runs side by side: they leave the same events as seen by `view`, make as
many parsers and end alike. If `mayBreak`, nothing is said where the run at
`false` is broken off for its depth. -/
def Logic.comparing (mayBreak : Prop) (view : Event → Event) : Logic Bool where
  Holds r Q := ∀ made, (mayBreak ∧ (r false made).result = .error .tooDeep) ∨
    ∃ (events : Bool → List Event) (made' : Nat),
      (events false).map view = (events true).map view ∧
      ((∃ e, ∀ b, r b made = ⟨events b, made', .error e⟩) ∨
        ∃ a, Q a ∧ ∀ b, r b made = ⟨events b, made', .ok (a b)⟩)
  pure {α a Q} h made :=
    Or.inr ⟨fun _ => [], made, rfl, Or.inr ⟨a, h, fun b => pure_apply (a b) made⟩⟩
  steady {α r Q} _ hQ made := by
    refine Or.inr ⟨fun _ => (r made).events, (r made).made, rfl, ?_⟩
    rcases h : r made with ⟨events, made', e | a⟩
    · exact Or.inl ⟨e, fun _ => h⟩
    · exact Or.inr ⟨fun _ => a, hQ a ⟨made, by rw [h]⟩, fun _ => h⟩
  bind {α β r f P Q} hr hf made := by
    obtain ⟨hbreak, hdeep⟩ | ⟨events, made', hview, ⟨e, h⟩ | ⟨a, ha, h⟩⟩ := hr made
    · refine Or.inl ⟨hbreak, ?_⟩
      have heq : r false made = ⟨(r false made).events, (r false made).made, .error .tooDeep⟩ := by
        rw [← hdeep]
      exact congrArg Trace.result (bind_apply_error heq (f false))
    · exact Or.inr ⟨events, made', hview, Or.inl ⟨e, fun b => bind_apply_error (h b) (f b)⟩⟩
    · have hbind : ∀ b t, f b (a b) made' = t →
          (r b >>= f b) made = ⟨events b ++ t.events, t.made, t.result⟩ := by
        intro b t heq
        subst heq
        exact bind_apply_ok (h b) (f b)
      obtain ⟨hbreak, hdeep⟩ | ⟨events', made'', hview', hend⟩ := hf a ha made'
      · exact Or.inl ⟨hbreak, (congrArg Trace.result (hbind false _ rfl)).trans hdeep⟩
      · refine Or.inr ⟨fun b => events b ++ events' b, made'', ?_, ?_⟩
        · rw [List.map_append, List.map_append, hview, hview']
        · rcases hend with ⟨e, h'⟩ | ⟨c, hc, h'⟩
          · exact Or.inl ⟨e, fun b => hbind b _ (h' b)⟩
          · exact Or.inr ⟨c, hc, fun b => hbind b _ (h' b)⟩
  seen hr made := by
    obtain hbreak | ⟨events, made', hview, he | ⟨a, ha, h⟩⟩ := hr made
    · exact Or.inl hbreak
    · exact Or.inr ⟨events, made', hview, Or.inl he⟩
    · exact Or.inr ⟨events, made', hview, Or.inr ⟨a, ⟨ha, true, made, by rw [h true]⟩, h⟩⟩

section Comparing

variable {mayBreak : Prop} {view : Event → Event}

/-- One run does the same as itself, even if it is broken off. -/
theorem Logic.holds_shared (r : Run α) {Q : (Bool → α) → Prop}
    (hQ : ∀ a, r.Returns a → Q fun _ => a) : (comparing mayBreak view).Holds (fun _ => r) Q := by
  intro made
  refine .inr ⟨fun _ => (r made).events, (r made).made, rfl, ?_⟩
  rcases h : r made with ⟨events, made', e | a⟩
  · exact .inl ⟨e, fun _ => h⟩
  · exact .inr ⟨fun _ => a, hQ a ⟨made, by rw [h]⟩, fun _ => h⟩

theorem Logic.allowsUnwired_comparing : (comparing mayBreak view).AllowsUnwired :=
  holds_shared _ fun _ h => absurd h not_returns_fail

/-- If no run may be broken off, whatever one of them returns the other returns
with it. -/
theorem Logic.returns_of_comparing {r : Bool → Run α} {Q : (Bool → α) → Prop}
    (h : (comparing False view).Holds r Q) {b : Bool} {x : α} (hx : (r b).Returns x) :
    ∃ a, Q a ∧ a b = x ∧ ∀ c, (r c).Returns (a c) := by
  obtain ⟨made, hx⟩ := hx
  obtain ⟨hfalse, -⟩ | ⟨events, made', -, ⟨e, he⟩ | ⟨a, ha, hr⟩⟩ := h made
  · exact hfalse.elim
  · rw [he b] at hx
    cases hx
  · rw [hr b] at hx
    exact ⟨a, ha, Except.ok.inj hx, fun c => ⟨made, by rw [hr c]⟩⟩

end Comparing

end Instances

end Run

end ParserCombinators
