import ParserCombinators.Grammar.Rule

/-!
How often a run calls a parser. The run is a function of the parser, so it can be made
with one that tells of its calls: however often it is called, so many more calls are told
under its name, while the run ends alike. Bounds are put together along a run: the calls
of its parts add up, and a part that does not depend on the parser adds none.
-/

namespace ParserCombinators

open Run

variable {α β : Type}

/-- A call that is told under a name. -/
def Event.isCall (id : Text) : Event → Bool
  | .log _ => false
  | .call name _ => decide (name = id)

/-- The number of calls that are told under a name. -/
def Trace.told (id : Text) (t : Trace α) : Nat := t.events.countP (Event.isCall id)

/-- The rule that tells of its calls under a name, and then does what `p` does. -/
def Rule.counted (id : Text) (p : Rule) : Rule := fun input => do
  Run.emit (.call id input)
  p input

/-- This is what a parser does whose calls are counted. -/
theorem Wrapper.rule_counted (call : Grammar → Rule) (g : Grammar) (p : Rule) (id : Text) :
    Wrapper.rule call g p (.counted id) = p.counted id := rfl

/-- A trace that ends like another one, with `n` more calls that are told under a name. -/
structure Trace.TellsMore (id : Text) (n : Nat) (t t' : Trace α) : Prop where
  told : t'.told id = t.told id + n
  made : t'.made = t.made
  result : t'.result = t.result

namespace Trace.TellsMore

variable {r r' : Run α} {f f' : α → Run β} {id : Text} {made made' m n : Nat}
  {events : List Event}

theorem apply_eq {result : Except Fault α} (hr : (r made).TellsMore id m (r' made))
    (h : r made = ⟨events, made', result⟩) : r' made = ⟨(r' made).events, made', result⟩ := by
  have hmade := hr.made
  have hresult := hr.result
  rw [h] at hmade hresult
  exact Trace.ext rfl hmade hresult

theorem bind_error {e : Fault} (hr : (r made).TellsMore id m (r' made))
    (h : r made = ⟨events, made', .error e⟩) :
    ((r >>= f) made).TellsMore id m ((r' >>= f') made) := by
  rw [bind_apply_error h, bind_apply_error (hr.apply_eq h)]
  refine ⟨?_, rfl, rfl⟩
  have htold := hr.told
  rw [h] at htold
  exact htold

theorem bind_ok {a : α} (hr : (r made).TellsMore id m (r' made))
    (h : r made = ⟨events, made', .ok a⟩) (hf : (f a made').TellsMore id n (f' a made')) :
    ((r >>= f) made).TellsMore id (m + n) ((r' >>= f') made) := by
  rw [bind_apply_ok h, bind_apply_ok (hr.apply_eq h)]
  refine ⟨?_, hf.made, hf.result⟩
  have htold := hr.told
  have hafter := hf.told
  rw [h] at htold
  simp only [Trace.told, List.countP_append] at htold hafter ⊢
  omega

end Trace.TellsMore

/-- `F p` calls `p` so many times: telling of these calls, under whichever name, adds so
many to the calls that are told under it, also if `p` or `F` tell of calls themselves. -/
def Run.Calls (F : Rule → Run α) (p : Rule) (made n : Nat) : Prop :=
  ∀ id, (F p made).TellsMore id n (F (p.counted id) made)

theorem Run.calls_steady (r : Run α) {p : Rule} {made : Nat} : Calls (fun _ => r) p made 0 :=
  fun _ => ⟨rfl, rfl, rfl⟩

theorem Run.calls_apply (p : Rule) (input : Value) (made : Nat) :
    Calls (fun p => p input) p made 1 := by
  refine fun id => ⟨?_, rfl, rfl⟩
  have hcall : (Event.call id input).isCall id = true := decide_eq_true rfl
  exact List.countP_cons_of_pos hcall

/-- A trace that ends with a result of `Q` or a fault of `E`. -/
def Trace.EndsIn (Q : α → Prop) (E : Fault → Prop) (t : Trace α) : Prop :=
  (∃ a, t.result = .ok a ∧ Q a) ∨ ∃ e, t.result = .error e ∧ E e

/-- `F p` calls `p` at most `n` times, and ends with a result of `Q` or a fault of `E`. -/
structure Run.EndsWithin (n : Nat) (F : Rule → Run α) (p : Rule) (made : Nat) (Q : α → Prop)
    (E : Fault → Prop) : Prop where
  calls : ∃ k, k ≤ n ∧ Calls F p made k
  ending : (F p made).EndsIn Q E

/-- An outcome that leaves a sequence, whichever. -/
def Value.LeavesSequence (r : Value) : Prop :=
  ∃ rest, rest.isSequence = true ∧ ((∃ v, r = .success rest v) ∨ ∃ e, r = .failure rest e)

/-- `F p` calls `p` at most `n` times, and replies with an outcome that leaves a sequence. -/
def Run.RepliesWithin (n : Nat) (F : Rule → Run Value) (p : Rule) (made : Nat) : Prop :=
  EndsWithin n F p made Value.LeavesSequence fun _ => False

namespace Run.EndsWithin

variable {F F' : Rule → Run α} {G : α → Rule → Run β} {p : Rule} {made made' m n : Nat}
  {events : List Event} {a : α} {P Q : α → Prop} {R : β → Prop} {E : Fault → Prop}

theorem mono (h : EndsWithin m F p made Q E) (hle : m ≤ n) : EndsWithin n F p made Q E := by
  obtain ⟨k, hk, hcalls⟩ := h.calls
  exact ⟨⟨k, Nat.le_trans hk hle, hcalls⟩, h.ending⟩

theorem congr (hF : ∀ p, F p = F' p) (h : EndsWithin n F' p made Q E) :
    EndsWithin n F p made Q E := by
  rwa [funext hF]

/-- A run that does not depend on the parser does not call it. -/
theorem steady {r : Run α} (h : (r made).EndsIn Q E) : EndsWithin n (fun _ => r) p made Q E :=
  ⟨⟨0, Nat.zero_le n, calls_steady r⟩, h⟩

theorem pure (h : Q a) : EndsWithin n (fun _ => Pure.pure a) p made Q E :=
  steady (.inl ⟨a, rfl, h⟩)

/-- The calls of a run and those of what comes after it add up. -/
theorem bind (hF : EndsWithin m F p made P E)
    (hG : ∀ events made' a, F p made = ⟨events, made', .ok a⟩ → P a →
      EndsWithin n (G a) p made' R E) :
    EndsWithin (n + m) (fun p => F p >>= fun a => G a p) p made R E := by
  obtain ⟨⟨k, hk, hcalls⟩, hending⟩ := hF
  rcases h : F p made with ⟨events, made', e | a⟩
  · rw [h] at hending
    obtain ⟨a, ha, -⟩ | ⟨e', he, hE⟩ := hending
    · cases ha
    · obtain rfl : e = e' := Except.error.inj he
      refine ⟨⟨k, by omega, fun id => (hcalls id).bind_error h⟩, .inr ⟨e, ?_, hE⟩⟩
      rw [bind_apply_error h]
  · rw [h] at hending
    obtain ⟨b, hb, hP⟩ | ⟨e, he, -⟩ := hending
    · obtain rfl : a = b := Except.ok.inj hb
      obtain ⟨⟨l, hl, hafter⟩, hending⟩ := hG events made' a h hP
      refine ⟨⟨k + l, by omega, fun id => (hcalls id).bind_ok h (hafter id)⟩, ?_⟩
      rw [bind_apply_ok h]
      exact hending
    · cases he

/-- What comes after a run that does not depend on the parser. -/
theorem after {r : Run α} (h : r made = ⟨events, made', .ok a⟩)
    (hG : EndsWithin n (G a) p made' R E) :
    EndsWithin n (fun p => r >>= fun a => G a p) p made R E := by
  have hr : EndsWithin 0 (fun _ => r) p made (· = a) E := .steady (.inl ⟨a, by rw [h], rfl⟩)
  refine hr.bind fun events' middle b hb hsame => ?_
  subst hsame
  obtain ⟨-, rfl, -⟩ := Trace.mk.inj (h.symm.trans hb)
  exact hG

/-- What comes after a call of the parser. -/
theorem call {input r : Value} {H : Value → Rule → Run β}
    (h : p input made = ⟨events, made', .ok r⟩) (hH : EndsWithin n (H r) p made' R E) :
    EndsWithin (n + 1) (fun p => p input >>= fun r => H r p) p made R E := by
  have hp : EndsWithin 1 (fun p => p input) p made (· = r) E :=
    ⟨⟨1, Nat.le_refl 1, calls_apply p input made⟩, .inl ⟨r, by rw [h], rfl⟩⟩
  refine hp.bind fun events' middle b hb hsame => ?_
  subst hsame
  obtain ⟨-, rfl, -⟩ := Trace.mk.inj (h.symm.trans hb)
  exact hH

end Run.EndsWithin

end ParserCombinators
