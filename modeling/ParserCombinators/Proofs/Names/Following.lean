import ParserCombinators.Proofs.Depth

/-!
A run at one depth beside another that may need more. The second is looked at
at every depth, and from some depth on it must do the same as the first, unless
the first is broken off. How much deeper that is need not be known: it may depend on
the input and on the parsers that come up on the way.
-/

namespace ParserCombinators

open Run

/-- The two runs: one at a depth that is fixed, the other at any depth. -/
inductive Version
  | fixed
  | deep (depth : Nat)

namespace Version

variable {α : Type}

/-- The depth of a version. -/
def depth (d : Nat) : Version → Nat
  | fixed => d
  | deep depth => depth

/-- What the two runs have in the same place. -/
def pick (a b : α) : Version → α
  | fixed => a
  | deep _ => b

/-- Whether a version is the fixed one or deep enough. -/
def Counts (enough : Nat) : Version → Prop
  | fixed => True
  | deep depth => enough ≤ depth

theorem Counts.mono {m n : Nat} {i : Version} (h : i.Counts n) (hmn : m ≤ n) : i.Counts m := by
  cases i with
  | fixed => trivial
  | deep depth => exact Nat.le_trans hmn h

/-- The version with one call less on its stack. -/
def shallower : Version → Version
  | fixed => fixed
  | deep depth => deep (depth - 1)

end Version

namespace Run

variable {α : Type}

/-- Unless the fixed run is broken off for its depth, all deep enough versions
leave the same events as seen by `view`, make as many parsers and end as it does. -/
def Logic.following (view : Event → Event) : Logic Version where
  Holds r Q := ∀ made, (r .fixed made).result = .error .tooDeep ∨
    ∃ (enough : Nat) (events : Version → List Event) (made' : Nat),
      (∀ i, (events i).map view = (events .fixed).map view) ∧
      ((∃ e, ∀ i, i.Counts enough → r i made = ⟨events i, made', .error e⟩) ∨
        ∃ a, Q a ∧ ∀ i, i.Counts enough → r i made = ⟨events i, made', .ok (a i)⟩)
  pure {α a Q} h made :=
    .inr ⟨0, fun _ => [], made, fun _ => rfl, .inr ⟨a, h, fun i _ => pure_apply (a i) made⟩⟩
  steady {α r Q} _ hQ made := by
    refine .inr ⟨0, fun _ => (r made).events, (r made).made, fun _ => rfl, ?_⟩
    rcases h : r made with ⟨events, made', e | a⟩
    · exact .inl ⟨e, fun _ _ => h⟩
    · exact .inr ⟨fun _ => a, hQ a ⟨made, by rw [h]⟩, fun _ _ => h⟩
  bind {α β r f P Q} hr hf made := by
    obtain hdeep | ⟨enough, events, made', hview, ⟨e, h⟩ | ⟨a, ha, h⟩⟩ := hr made
    · have hbroken : r .fixed made =
          ⟨(r .fixed made).events, (r .fixed made).made, .error .tooDeep⟩ := by
        rw [← hdeep]
      exact .inl (congrArg Trace.result (bind_apply_error hbroken (f .fixed)))
    · exact .inr ⟨enough, events, made', hview,
        .inl ⟨e, fun i hi => bind_apply_error (h i hi) (f i)⟩⟩
    · have hbind : ∀ i, i.Counts enough → ∀ t, f i (a i) made' = t →
          (r i >>= f i) made = ⟨events i ++ t.events, t.made, t.result⟩ := by
        intro i hi t heq
        subst heq
        exact bind_apply_ok (h i hi) (f i)
      obtain hdeep | ⟨enough', events', made'', hview', hend⟩ := hf a ha made'
      · exact .inl ((congrArg Trace.result (hbind .fixed trivial _ rfl)).trans hdeep)
      · have hleft : ∀ i : Version, i.Counts (max enough enough') → i.Counts enough :=
          fun _ hi => hi.mono (by omega)
        have hright : ∀ i : Version, i.Counts (max enough enough') → i.Counts enough' :=
          fun _ hi => hi.mono (by omega)
        refine .inr ⟨max enough enough', fun i => events i ++ events' i, made'', fun i => ?_, ?_⟩
        · rw [List.map_append, List.map_append, hview, hview']
        · rcases hend with ⟨e, h'⟩ | ⟨b, hb, h'⟩
          · exact .inl ⟨e, fun i hi => hbind i (hleft i hi) _ (h' i (hright i hi))⟩
          · exact .inr ⟨b, hb, fun i hi => hbind i (hleft i hi) _ (h' i (hright i hi))⟩
  seen hr made := by
    obtain hdeep | ⟨enough, events, made', hview, he | ⟨a, ha, h⟩⟩ := hr made
    · exact .inl hdeep
    · exact .inr ⟨enough, events, made', hview, .inl he⟩
    · exact .inr ⟨enough, events, made', hview,
        .inr ⟨a, ⟨ha, .fixed, made, by rw [h .fixed trivial]⟩, h⟩⟩

namespace Logic

variable {view : Event → Event}

theorem allowsUnwired_following : (following view).AllowsUnwired := fun made =>
  .inr ⟨0, fun _ => [], made, fun _ => rfl, .inl ⟨_, fun _ _ => rfl⟩⟩

/-- A family that lets the deep versions make one call more. -/
theorem Fits.deeper {p q : Version → Rule} (hp : (following view).Fits .same .same p)
    (hfixed : q .fixed = p .fixed) (hdeep : ∀ d, q (.deep (d + 1)) = p (.deep d)) :
    (following view).Fits .same .same q := by
  intro input hinput
  obtain ⟨v, -, rfl⟩ := hinput
  have hv : (Scope.same (ι := Version)).inputs fun _ => v := uniform_const trivial
  have hq : ∀ (i : Version) (made : Nat), i.Counts 1 → q i v made = p i.shallower v made := by
    intro i made hi
    cases i with
    | fixed => exact congrArg (fun p => p v made) hfixed
    | deep d =>
      obtain ⟨d, rfl⟩ := Nat.exists_eq_add_of_le' hi
      exact congrArg (fun p => p v made) (hdeep d)
  have hcounts : ∀ (n : Nat) (i : Version), i.Counts (n + 1) → i.shallower.Counts n := by
    intro n i hi
    cases i with
    | fixed => trivial
    | deep d => exact Nat.le_sub_of_add_le hi
  intro made
  obtain hbroken | ⟨enough, events, made', hview, hend⟩ := hp _ hv made
  · exact .inl ((congrArg Trace.result (hq .fixed made trivial)).trans hbroken)
  · refine .inr ⟨enough + 1, fun i => events i.shallower, made', fun i => hview _, ?_⟩
    rcases hend with ⟨e, h⟩ | ⟨r, hr, h⟩
    · exact .inl ⟨e, fun i hi =>
        (hq i made (hi.mono (by omega))).trans (h _ (hcounts enough i hi))⟩
    · obtain ⟨w, -, rfl⟩ := uniform_reply Scope.ordinary_same hv hr
      exact .inr ⟨fun _ => w, reply_same w, fun i hi =>
        (hq i made (hi.mono (by omega))).trans (h _ (hcounts enough i hi))⟩

/-- A line is logged in both runs, whatever it says. -/
theorem holds_log_following (hview : ∀ line line', view (.log line) = view (.log line'))
    (line : Version → Text) {Q : (Version → Unit) → Prop} (hQ : Q fun _ => ()) :
    (following view).Holds (fun i => Run.log (line i)) Q := by
  intro made
  refine .inr ⟨0, fun i => [.log (line i)], made, fun i => ?_, .inr ⟨fun _ => (), hQ, fun _ _ => rfl⟩⟩
  rw [List.map_singleton, List.map_singleton, hview]

end Logic

end Run

namespace Grammar

variable {view : Event → Event}

/-- A family of rules whose calls are one deeper. -/
theorem fits_callAt_succ {d : Nat} {g : Version → Grammar} (hg : ∀ i, g (.deep i) = g (.deep 0))
    (h : (Logic.following view).Fits .same .same fun i => (g i).rule (callAt (i.depth d))) :
    (Logic.following view).Fits .same .same fun i => callAt (i.depth (d + 1)) (g i) := by
  refine h.deeper (run_eq d (g .fixed)) fun depth => ?_
  show (g (.deep (depth + 1))).run depth = (g (.deep depth)).rule (callAt depth)
  rw [hg, hg depth, run_eq]

/-- One grammar, run at a depth and at every other. -/
theorem fits_following (d : Nat) : ∀ g : Grammar,
    (Logic.following view).Fits .same .same fun i => callAt (i.depth d) g := by
  induction d with
  | zero => exact fun _ _ _ _ => .inl rfl
  | succ d ih =>
    exact fun g => fits_callAt_succ (fun _ => rfl)
      (Logic.fits_rule Logic.allowsUnwired_following ih g)

end Grammar

end ParserCombinators
