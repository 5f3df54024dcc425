import ParserCombinators.Proofs.Grammar.Borrow

/-!
What a parse does on an unbounded stack. It ends if from some depth on the
depth no longer matters, and recurses forever if every depth is too small. More
depth changes nothing but a parse that was broken off, so one of the two is the
case.
-/

namespace ParserCombinators

open Run Run.Logic

namespace Grammar

/-- The parse leaves this trace from some depth on and is not broken off for its
depth. -/
def Ends (g : Grammar) (input : Value) (made : Nat) (t : Trace Value) : Prop :=
  t.result ≠ .error .tooDeep ∧ ∃ depth, ∀ d, depth ≤ d → g.run d input made = t

/-- The parse is broken off at every depth. -/
def RecursesForever (g : Grammar) (input : Value) (made : Nat) : Prop :=
  ∀ d, (g.run d input made).result = .error .tooDeep

end Grammar

namespace Run.Logic

variable {ι : Type} {L : Logic ι} {X : Scope ι} {call : ι → Grammar → Rule}

/-- Whatever one run replies for all is the same reply. -/
theorem reply_same {input : ι → Value} (r : Value) : Reply .same .same input fun _ => r := by
  cases hrest : r.rest? with
  | none => exact .stray (uniform_const trivial) (stray_of_rest?_eq_none hrest)
  | some rest =>
    cases r with
    | success rest v => exact .success (fun _ => uniform_const trivial) (uniform_const trivial)
    | failure rest e => exact .failure (fun _ => uniform_const trivial) (uniform_const trivial)
    | _ => cases hrest

/-- One rule for all, of which no more is known than that it nests no calls. -/
theorem fits_steady {p : Rule} (hp : ∀ input, (p input).Shallow) :
    L.Fits .same .same fun _ => p := by
  intro a ha
  obtain ⟨input, -, rfl⟩ := ha
  exact L.steady (hp input) fun r _ => reply_same r

theorem fits_value_of_calls (hcall : ∀ g : Grammar, L.Fits .same .same fun i => call i g)
    (v : Value) : L.Fits .same .same fun i => (Leaf.value v).rule (call i) :=
  fits_value (fun _ f _ => fits_steady fun input => Callback.shallow_apply f [input])
    fun _ g _ => hcall g

theorem holds_invoke_of_calls (hcall : ∀ g : Grammar, L.Fits .same .same fun i => call i g)
    (f : Value) (arguments : List Value) :
    L.Holds (fun i => f.invoke (call i) arguments) (Uniform fun _ => True) := by
  refine holds_invoke fun identity g input _ _ => ?_
  have hinput : (Scope.same (ι := ι)).inputs fun _ => input := uniform_const trivial
  exact L.weaken (hcall g _ hinput) fun r hr => uniform_reply Scope.ordinary_same hinput hr

theorem fits_wrap (hcall : ∀ g : Grammar, L.Fits .same .same fun i => call i g) {g : Grammar}
    (w : Wrapper) {p : ι → Rule} (hp : L.Fits .same .same p) :
    L.Fits .same .same fun i => w.rule (call i) g (p i) := by
  have hchoose : ∀ (f : Callback) (v : Value),
      L.Holds (fun i => f.choose (call i) v) (L.Fits .same .same) := fun f v =>
    holds_choose fun w _ => fits_value_of_calls hcall w
  by_cases hw : w.chooses = false
  · exact fits_wrapper Scope.ordinary_same hw
      (fun _ => L.steady (shallow_log _) fun _ _ => trivial) hp
  · cases w with
    | recoverWith f => exact hp.recoverWith_same (hchoose f)
    | andThen f => exact hp.andThen_same (hchoose f)
    | bind onSuccess onFailure => exact hp.bind_same (hchoose onSuccess) (hchoose onFailure)
    | _ => exact absurd rfl hw

theorem fits_join (hcall : ∀ g : Grammar, L.Fits .same .same fun i => call i g) (j : Joint)
    {p q : ι → Rule} (hp : L.Fits .same .same p) (hq : L.Fits .same .same q) :
    L.Fits .same .same fun i => j.rule (call i) (p i) (q i) := by
  by_cases hj : j = .apply
  · subst hj
    refine hp.apply hq ?_ (fun _ he => he) (fun _ he => he) (fun _ hr => hr) fun _ hr => hr
    intro a b ha hb
    obtain ⟨f, -, rfl⟩ := ha
    obtain ⟨v, -, rfl⟩ := hb
    exact L.bind_steady v.shallow_iterate fun arguments _ => holds_invoke_of_calls hcall f arguments
  · exact fits_joint Scope.ordinary_same hj hp hq

/-- If calls reply the same for all, so does every grammar. -/
theorem fits_rule (hunwired : L.AllowsUnwired)
    (hcall : ∀ g : Grammar, L.Fits .same .same fun i => call i g) :
    ∀ g : Grammar, L.Fits .same .same fun i => g.rule (call i)
  | .leaf l => by
    by_cases hl : l.isPlain = true
    · exact fits_leaf Scope.ordinary_same hl
    · cases l with
      | element item error =>
        exact fits_accepts fun v => holds_invoke_of_calls hcall item [v]
      | value v => exact fits_value_of_calls hcall v
      | reply outcome => exact fits_steady fun _ => shallow_pure _
      | _ => exact absurd rfl hl
  | .wrap w g => fits_wrap hcall w (fits_rule hunwired hcall g)
  | .join j g h =>
    fits_join hcall j (fits_rule hunwired hcall g) (fits_rule hunwired hcall h)
  | .surroundedBy g left right =>
    fits_surroundedBy (fits_rule hunwired hcall g) (fits_rule hunwired hcall left)
      (fits_rule hunwired hcall right)
  | .ref _ => fun _ _ => hunwired
  | .recursive x body => hcall (Grammar.unfold x body)
  | .recursiveEager _ _ _ => fun _ _ => hunwired
  | .handle x body => hcall (Grammar.unfold x body)

end Run.Logic

namespace Grammar

variable {g : Grammar} {input : Value} {made : Nat}

/-- Runs of a grammar at one depth and at the next do the same, except that the
first may be broken off. -/
theorem fits_deeper (d : Nat) : ∀ g : Grammar,
    (Logic.comparing True id).Fits .same .same fun b => g.run (cond b (d + 1) d) := by
  induction d with
  | zero =>
    intro g
    have hcall : ∀ g : Grammar, (Logic.comparing True id).Fits .same .same fun b =>
        callAt (cond b 1 0) g := fun _ _ _ _ => .inl ⟨trivial, rfl⟩
    have hrule := fits_rule allowsUnwired_comparing hcall g
    exact hrule.congr fun b _ => by rw [run_eq]
  | succ d ih =>
    intro g
    have hcall : ∀ g : Grammar, (Logic.comparing True id).Fits .same .same fun b =>
        callAt (cond b (d + 2) (d + 1)) g :=
      fun g => (ih g).congr fun b _ => by cases b <;> rfl
    have hrule := fits_rule allowsUnwired_comparing hcall g
    exact hrule.congr fun b _ => by rw [run_eq]

theorem run_succ {d : Nat} (hd : (g.run d input made).result ≠ .error .tooDeep) :
    g.run (d + 1) input made = g.run d input made := by
  have hinput : (Scope.same (ι := Bool)).inputs fun _ => input := uniform_const trivial
  rcases fits_deeper d g _ hinput made with ⟨-, hdeep⟩ | ⟨events, made', hview, hend⟩
  · exact absurd hdeep hd
  · have hevents : events false = events true := by simpa using hview
    rcases hend with ⟨e, h⟩ | ⟨r, hr, h⟩
    · exact (h true).trans (hevents ▸ (h false).symm)
    · obtain ⟨v, -, rfl⟩ := uniform_reply Scope.ordinary_same hinput hr
      exact (h true).trans (hevents ▸ (h false).symm)

/-- A parse that is not broken off does the same at every greater depth. -/
theorem run_mono {c d : Nat} (hc : (g.run c input made).result ≠ .error .tooDeep) (hcd : c ≤ d) :
    g.run d input made = g.run c input made := by
  induction hcd with
  | refl => rfl
  | step _ ih => rw [run_succ (by rw [ih]; exact hc), ih]

theorem ends_of_run {d : Nat} (hd : (g.run d input made).result ≠ .error .tooDeep) :
    g.Ends input made (g.run d input made) :=
  ⟨hd, d, fun _ hle => run_mono hd hle⟩

/-- A parse ends or recurses forever. -/
theorem ends_or_recursesForever (g : Grammar) (input : Value) (made : Nat) :
    (∃ t, g.Ends input made t) ∨ g.RecursesForever input made := by
  by_cases h : g.RecursesForever input made
  · exact .inr h
  · obtain ⟨d, hd⟩ := Classical.not_forall.mp h
    exact .inl ⟨_, ends_of_run hd⟩

end Grammar

end ParserCombinators
