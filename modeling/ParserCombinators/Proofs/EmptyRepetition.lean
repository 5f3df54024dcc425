import ParserCombinators.Grammar.Construction
import ParserCombinators.Proofs.Counted
import ParserCombinators.Proofs.Grammar.Borrow

/-!
Repetitions without a match. The list is empty if the first attempt fails or
consumes nothing, and if no attempt is allowed. A separated list then leaves the
whole input. The other repetitions go on from wherever an attempt failed, so if the
first one fails after it has consumed something, they leave less.
-/

namespace ParserCombinators

open Run

namespace Rule

variable {p s : Rule} {onStall : Nat → Run Unit} {input rest : Value} {made : Nat}

/-- What a repetition leaves of an input if the first attempt is not counted: it
fails, or it matches without consuming anything. -/
inductive Uncounted (p : Rule) (input : Value) (made : Nat) : Value → Prop
  | failed {rest e : Value} (h : (p input made).result = .ok (.failure rest e)) :
      Uncounted p input made rest
  | stalled {next v : Value} (h : (p input made).result = .ok (.success next v))
      (hkinds : next.comparable input = pure ()) (hsize : input.size ≤ next.size) :
      Uncounted p input made input

section Attempt

/-- The first round of a repetition: it goes on by `more` after a match that consumes
something, by `stop` after one that does not, and ends where the attempt failed. -/
def attempt (more : Value → Value → Run Value) (stop : Run Value) (p : Rule) : Rule :=
  fun input => do
    let r ← p input
    if r.isTrue then
      let next ← r.rest
      next.comparable input
      if next.size < input.size then
        let v ← r.output
        more next v
      else stop
    else
      let next ← r.rest
      accept next (.list [])

/-- A repetition whose list never gets empty again is empty if its first attempt is
not counted. -/
theorem attempt_result_iff {more : Value → Value → Run Value} {stop : Run Value}
    (hmore : ∀ next v made, (more next v made).result ≠ .ok (.success rest (.list [])))
    (hstop : ∀ made, (stop made).result = .ok (.success input (.list []))) :
    (attempt more stop p input made).result = .ok (.success rest (.list [])) ↔
      p.Uncounted input made rest := by
  rcases hp : p input made with ⟨events, made', e | r⟩
  · rw [attempt, bind_apply_error hp]
    refine ⟨nofun, fun h => ?_⟩
    cases h with
    | failed h =>
      rw [hp] at h
      cases h
    | stalled h =>
      rw [hp] at h
      cases h
  · have hresult : (p input made).result = .ok r := by rw [hp]
    rw [attempt, bind_apply_ok hp]
    constructor
    · intro h
      have hreturns : Run.Returns _ _ := ⟨made', h⟩
      by_cases htrue : r.isTrue = true
      · simp only [if_pos htrue] at h hreturns
        obtain ⟨next, hnext, hreturns⟩ := hreturns.of_bind
        obtain ⟨v, rfl⟩ := Value.eq_success_of_rest htrue hnext
        obtain ⟨_, hkinds, -⟩ := hreturns.of_bind
        have hkinds := Value.comparable_of_returns hkinds
        simp only [Value.rest_success, pure_bind, hkinds, Value.output_success] at h
        by_cases hlt : next.size < input.size
        · rw [if_pos hlt] at h
          exact absurd h (hmore next v made')
        · rw [if_neg hlt, hstop] at h
          obtain ⟨rfl, -⟩ := Value.success.inj (Except.ok.inj h)
          exact .stalled hresult hkinds (Nat.le_of_not_lt hlt)
      · simp only [if_neg htrue] at h hreturns
        obtain ⟨next, hnext, hreturns⟩ := hreturns.of_bind
        obtain ⟨e, rfl⟩ := Value.eq_failure_of_rest (Bool.eq_false_iff.mpr htrue) hnext
        obtain ⟨rfl, -⟩ := Value.success.inj (returns_accept.mp hreturns)
        exact .failed hresult
    · intro h
      cases h with
      | failed h =>
        obtain rfl := Except.ok.inj (hresult.symm.trans h)
        rfl
      | stalled h hkinds hsize =>
        obtain rfl := Except.ok.inj (hresult.symm.trans h)
        simp only [Value.isTrue_success, Value.rest_success, pure_bind, hkinds,
          if_neg (Nat.not_lt_of_le hsize)]
        exact hstop made'

end Attempt

/-- A list of outputs only gets longer as a loop goes on. -/
theorem result_ne_empty {r : Run Value} {outputs : List Value} (houtputs : outputs ≠ [])
    (h : ∀ w, r.Returns (.success rest w) → ∃ vs, w = .list (outputs ++ vs)) :
    (r made).result ≠ .ok (.success rest (.list [])) := by
  intro hr
  obtain ⟨vs, hvs⟩ := h _ ⟨made, hr⟩
  have happend : outputs ++ vs = [] := (Value.list.inj hvs).symm
  exact houtputs (List.append_eq_nil_iff.mp happend).1

theorem many_result_iff (hstall : ∀ left made, (onStall left made).result = .ok ()) :
    (p.many onStall input made).result = .ok (.success rest (.list [])) ↔
      p.Uncounted input made rest := by
  have hattempt : p.many onStall input = p.attempt
      (fun next v => manyFrom onStall p [v] next)
      (do
        onStall input.size
        accept input (.list [])) input := by
    rw [many, manyFrom]
    rfl
  rw [hattempt]
  refine attempt_result_iff (fun next v made => ?_) fun made => ?_
  · refine result_ne_empty (List.cons_ne_nil v []) fun w hw => ?_
    obtain ⟨vs, -, -, rfl, -⟩ := returns_manyFrom next.size rfl hw
    exact ⟨vs, rfl⟩
  · rw [bind_apply_ok (eq_of_result (hstall input.size made))]
    rfl

theorem atMost_result_iff {count : Nat} :
    (p.atMost count input made).result = .ok (.success rest (.list [])) ↔
      count = 0 ∧ rest = input ∨ 0 < count ∧ p.Uncounted input made rest := by
  cases count with
  | zero =>
    rw [atMost, atMostFrom, accept, pure_apply]
    simp [eq_comm]
  | succ count =>
    have hattempt : p.atMost (count + 1) input = p.attempt
        (fun next v => atMostFrom p count [v] next) (accept input (.list [])) input := by
      rw [atMost, atMostFrom]
      rfl
    have hcases : p.Uncounted input made rest ↔ count + 1 = 0 ∧ rest = input ∨
        0 < count + 1 ∧ p.Uncounted input made rest := by simp
    rw [hattempt, ← hcases]
    refine attempt_result_iff (fun next v made => ?_) fun made => rfl
    refine result_ne_empty (List.cons_ne_nil v []) fun w hw => ?_
    obtain ⟨vs, -, -, rfl, -⟩ := returns_atMostFrom count hw
    exact ⟨vs, rfl⟩

theorem atLeast_zero_result_iff {error : Value} :
    (p.atLeast 0 error input made).result = .ok (.success rest (.list [])) ↔
      p.Uncounted input made rest := by
  rw [atLeast_zero]
  exact many_result_iff fun _ _ => rfl

section Separated

/-- The rounds after the first item keep its output. -/
theorem returns_separatedFrom (n : Nat) : ∀ {outputs vs : List Value} {input last : Value},
    input.size = n → (separatedFrom p s outputs input).Returns (last, vs) →
    ∃ ws, vs = outputs ++ ws := by
  induction n using Nat.strongRecOn with
  | ind n ih =>
    intro outputs vs input last hn h
    have hstop : (pure (input, outputs) : Run _).Returns (last, vs) → ∃ ws, vs = outputs ++ ws := by
      intro hpure
      obtain ⟨-, rfl⟩ := Prod.mk.inj (returns_pure.mp hpure)
      exact ⟨[], (List.append_nil _).symm⟩
    rw [separatedFrom] at h
    obtain ⟨a, -, h⟩ := h.of_bind
    split at h
    case isFalse => exact hstop h
    obtain ⟨middle, -, h⟩ := h.of_bind
    obtain ⟨b, -, h⟩ := h.of_bind
    split at h
    case isFalse => exact hstop h
    obtain ⟨next, -, h⟩ := h.of_bind
    obtain ⟨_, -, h⟩ := h.of_bind
    split at h
    case isFalse => exact hstop h
    case isTrue hlt =>
      obtain ⟨v, -, h⟩ := h.of_bind
      obtain ⟨ws, rfl⟩ := ih next.size (hn ▸ hlt) rfl h
      exact ⟨v :: ws, by simp⟩

theorem sepBy_result_iff :
    (p.sepBy s input made).result = .ok (.success rest (.list [])) ↔
      rest = input ∧ ∃ r, (p input made).result = .ok r ∧ r.isTrue = false := by
  rcases hp : p input made with ⟨events, made', e | r⟩
  · rw [sepBy, bind_apply_error hp]
    simp
  rw [sepBy, bind_apply_ok hp]
  by_cases htrue : r.isTrue = true
  · simp only [if_pos htrue]
    refine ⟨fun h => ?_, fun h => ?_⟩
    · have hreturns : Run.Returns _ _ := ⟨made', h⟩
      obtain ⟨next, -, hreturns⟩ := hreturns.of_bind
      obtain ⟨v, -, hreturns⟩ := hreturns.of_bind
      obtain ⟨⟨last, vs⟩, hvs, hreturns⟩ := hreturns.of_bind
      obtain ⟨ws, rfl⟩ := returns_separatedFrom next.size rfl hvs
      cases returns_accept.mp hreturns
    · obtain ⟨-, s, hs, hfalse⟩ := h
      obtain rfl := Except.ok.inj hs
      rw [htrue] at hfalse
      cases hfalse
  · have hfalse : r.isTrue = false := Bool.eq_false_iff.mpr htrue
    simp only [if_neg htrue, accept, pure_apply]
    refine ⟨fun h => ?_, fun h => ?_⟩
    · obtain ⟨rfl, -⟩ := Value.success.inj (Except.ok.inj h)
      exact ⟨rfl, r, rfl, hfalse⟩
    · rw [h.1]

end Separated

end Rule

namespace Grammar

/-- A separated list is empty if the first item fails, and leaves the whole input. The
other repetitions are empty if no attempt is allowed, and leave the input then, or if
the first attempt is not counted: they leave the input if it has consumed nothing, and
if it has failed they leave what that failure leaves. -/
theorem run_result_empty_iff (g s : Grammar) (depth : Nat) (input rest : Value) (made : Nat) :
    (((wrap .many g).run depth input made).result = .ok (.success rest (.list [])) ↔
      (g.run depth).Uncounted input made rest) ∧
    (∀ n, ((wrap (.atMost n) g).run depth input made).result = .ok (.success rest (.list [])) ↔
      n.count = 0 ∧ rest = input ∨ 0 < n.count ∧ (g.run depth).Uncounted input made rest) ∧
    (∀ error, ((wrap (.atLeast (.int 0) error) g).run depth input made).result =
        .ok (.success rest (.list [])) ↔ (g.run depth).Uncounted input made rest) ∧
    (((join .sepBy g s).run depth input made).result = .ok (.success rest (.list [])) ↔
      rest = input ∧ ∃ r, (g.run depth input made).result = .ok r ∧ r.isTrue = false) := by
  rw [run_wrap, run_join]
  refine ⟨Rule.many_result_iff fun _ _ => rfl, fun n => ?_, fun error => ?_, Rule.sepBy_result_iff⟩
  · rw [run_wrap]
    exact Rule.atMost_result_iff
  · rw [run_wrap]
    exact Rule.atLeast_zero_result_iff

/-- Pairs of letters. -/
def letterPair : Grammar :=
  join .seq (leaf (.literal (.text "a") (.text "no a")))
    (leaf (.literal (.text "b") (.text "no b")))

/-- The first letter of a pair is lost if no other follows it. -/
theorem run_many_letterPair :
    ((wrap .many letterPair).build 0).result = .ok () ∧
      ((wrap .many letterPair).run 0 (.text "ac") 0).result =
        .ok (.success (.text "c") (.list [])) ∧
      (.text "c" : Value) ≠ .text "ac" := by
  refine ⟨rfl, ?_, fun h => absurd (Value.text.inj h) (by decide)⟩
  rw [run_wrap]
  refine (Rule.many_result_iff fun _ _ => rfl).mpr ?_
  exact .failed (e := .branch .right (.text "no b")) rfl

end Grammar

end ParserCombinators
