import ParserCombinators.Proofs.Uniform
import ParserCombinators.Rule.Look
import ParserCombinators.Rule.Repeat
import ParserCombinators.Rule.Transform

/-!
What a success comes from. Where a rule that is put together from others
succeeds, its parts have replied in one of a few ways, and the lemmas here say
in which. A repetition has matched its rule some times in a row and stops at
its last match or where the next attempt failed.
-/

namespace ParserCombinators

open Run

theorem returns_accept {rest v r : Value} : (accept rest v).Returns r ↔ r = .success rest v :=
  returns_pure

theorem returns_reject {rest e r : Value} : (reject rest e).Returns r ↔ r = .failure rest e :=
  returns_pure

namespace Value

theorem returns_item_zero {v w : Value} (h : (v.item 0).Returns w) : v.at? 0 = some w := by
  obtain ⟨size, -, h⟩ := h.of_bind
  by_cases hout : (0 : Int) < -size
  · omega
  · rw [if_neg hout] at h
    exact returns_ofOption.mp h

end Value

/-- What a run returns that looks at the truth of a reply. -/
theorem Run.Returns.of_reply {β : Type} {r : Run Value} {f g : Value → Run β} {b : β}
    (h : (do let a ← r; if a.isTrue then f a else g a).Returns b) :
    ∃ a, r.Returns a ∧ (a.isTrue = true ∧ (f a).Returns b ∨ a.isTrue = false ∧ (g a).Returns b) := by
  obtain ⟨a, ha, h⟩ := h.of_bind
  refine ⟨a, ha, ?_⟩
  by_cases htrue : a.isTrue = true
  · rw [if_pos htrue] at h
    exact .inl ⟨htrue, h⟩
  · rw [if_neg htrue] at h
    exact .inr ⟨Bool.eq_false_iff.mpr htrue, h⟩

namespace Value

/-- A match that leaves something is a success. -/
theorem eq_success_of_rest {r middle : Value} (htrue : r.isTrue = true)
    (h : r.rest.Returns middle) : ∃ v, r = .success middle v := by
  cases r with
  | success rest v => exact ⟨v, by rw [returns_pure.mp h]⟩
  | failure rest e => cases htrue
  | _ => exact absurd h not_returns_fail

/-- A mismatch that leaves something is a failure. -/
theorem eq_failure_of_rest {r middle : Value} (hfalse : r.isTrue = false)
    (h : r.rest.Returns middle) : ∃ e, r = .failure middle e := by
  cases r with
  | success rest v => cases hfalse
  | failure rest e => exact ⟨e, by rw [returns_pure.mp h]⟩
  | _ => exact absurd h not_returns_fail

theorem eq_of_output_success {rest v w : Value} (h : (success rest v).output.Returns w) : w = v :=
  returns_pure.mp h

end Value

namespace Rule

variable {p q : Rule} {input rest v : Value}

section Input

variable {pattern error : Value}

theorem returns_literal (h : (literal pattern error input).Returns (.success rest v)) :
    ∃ n, rest = input.dropFirst n ∧ v = input.takeFirst n ∧ v.equals pattern = true := by
  obtain ⟨a, ha, h⟩ := h.of_bind
  obtain rfl := Value.returns_cutAt ha
  by_cases hequal : (input.takeFirst (Value.fromStart input.size pattern.size)).equals pattern
  · simp only [hequal, if_true] at h
    obtain ⟨rfl, rfl⟩ := Value.success.inj (returns_accept.mp h)
    exact ⟨_, rfl, rfl, hequal⟩
  · simp only [hequal] at h
    cases returns_reject.mp h

theorem returns_element {test : Value → Run Bool}
    (h : (element test error input).Returns (.success rest v)) :
    rest = input.dropFirst 1 ∧ input.at? 0 = some v := by
  obtain ⟨size, -, h⟩ := h.of_bind
  by_cases hsize : size = 0
  · simp only [if_pos hsize] at h
    cases returns_reject.mp h
  · simp only [if_neg hsize] at h
    obtain ⟨head, hhead, h⟩ := h.of_bind
    obtain ⟨passed, -, h⟩ := h.of_bind
    cases passed with
    | true =>
      obtain ⟨rfl, rfl⟩ := Value.success.inj (returns_accept.mp h)
      exact ⟨rfl, Value.returns_item_zero hhead⟩
    | false => cases returns_reject.mp h

theorem returns_endOfInput (h : (endOfInput error input).Returns (.success rest v)) :
    rest = input ∧ v = .none := by
  obtain ⟨size, -, h⟩ := h.of_bind
  by_cases hsize : size = 0
  · simp only [if_pos hsize] at h
    exact Value.success.inj (returns_accept.mp h)
  · simp only [if_neg hsize] at h
    cases returns_reject.mp h

end Input

theorem returns_seq (h : (p.seq q input).Returns (.success rest v)) :
    ∃ middle u w, (p input).Returns (.success middle u) ∧
      (q middle).Returns (.success rest w) ∧ v = .tuple [u, w] := by
  obtain ⟨r, hr, ⟨htrue, h⟩ | ⟨-, h⟩⟩ := h.of_reply
  · obtain ⟨middle, hmiddle, h⟩ := h.of_bind
    obtain ⟨u, rfl⟩ := Value.eq_success_of_rest htrue hmiddle
    obtain ⟨s, hs, ⟨htrue, h⟩ | ⟨-, h⟩⟩ := h.of_reply
    · obtain ⟨last, hlast, h⟩ := h.of_bind
      obtain ⟨w, rfl⟩ := Value.eq_success_of_rest htrue hlast
      simp only [Value.output_success, pure_bind] at h
      obtain ⟨rfl, rfl⟩ := Value.success.inj (returns_accept.mp h)
      exact ⟨middle, u, w, hr, hs, rfl⟩
    · obtain ⟨_, -, h⟩ := h.of_bind
      obtain ⟨_, -, h⟩ := h.of_bind
      cases returns_reject.mp h
  · obtain ⟨_, -, h⟩ := h.of_bind
    obtain ⟨_, -, h⟩ := h.of_bind
    cases returns_reject.mp h

theorem returns_alt (h : (p.alt q input).Returns (.success rest v)) :
    (∃ u, (p input).Returns (.success rest u) ∧ v = .branch .left u) ∨
      ∃ w, (q input).Returns (.success rest w) ∧ v = .branch .right w := by
  obtain ⟨r, hr, ⟨htrue, h⟩ | ⟨-, h⟩⟩ := h.of_reply
  · obtain ⟨middle, hmiddle, h⟩ := h.of_bind
    obtain ⟨u, rfl⟩ := Value.eq_success_of_rest htrue hmiddle
    simp only [Value.output_success, pure_bind] at h
    obtain ⟨rfl, rfl⟩ := Value.success.inj (returns_accept.mp h)
    exact .inl ⟨u, hr, rfl⟩
  · obtain ⟨s, hs, ⟨htrue, h⟩ | ⟨-, h⟩⟩ := h.of_reply
    · obtain ⟨last, hlast, h⟩ := h.of_bind
      obtain ⟨w, rfl⟩ := Value.eq_success_of_rest htrue hlast
      simp only [Value.output_success, pure_bind] at h
      obtain ⟨rfl, rfl⟩ := Value.success.inj (returns_accept.mp h)
      exact .inr ⟨w, hs, rfl⟩
    · obtain ⟨_, -, h⟩ := h.of_bind
      obtain ⟨_, -, h⟩ := h.of_bind
      cases returns_reject.mp h

theorem returns_maybe (h : (p.maybe input).Returns (.success rest v)) :
    (p input).Returns (.success rest v) ∨ rest = input ∧ v = .none := by
  obtain ⟨r, hr, ⟨-, h⟩ | ⟨-, h⟩⟩ := h.of_reply
  · rw [returns_pure.mp h]
    exact .inl hr
  · obtain ⟨rfl, rfl⟩ := Value.success.inj (returns_accept.mp h)
    exact .inr ⟨rfl, rfl⟩

theorem returns_not {error : Value} (h : (p.not error input).Returns (.success rest v)) :
    rest = input ∧ v = .none := by
  obtain ⟨r, -, ⟨-, h⟩ | ⟨-, h⟩⟩ := h.of_reply
  · cases returns_reject.mp h
  · obtain ⟨rfl, rfl⟩ := Value.success.inj (returns_accept.mp h)
    exact ⟨rfl, rfl⟩

theorem returns_backtrack (h : (p.backtrack input).Returns (.success rest v)) :
    (p input).Returns (.success rest v) := by
  obtain ⟨r, hr, ⟨-, h⟩ | ⟨-, h⟩⟩ := h.of_reply
  · rw [returns_pure.mp h]
    exact hr
  · obtain ⟨_, -, h⟩ := h.of_bind
    cases returns_reject.mp h

theorem returns_validate {test : Value → Run Value} {error : Value}
    (h : (p.validate test error input).Returns (.success rest v)) :
    (p input).Returns (.success rest v) := by
  obtain ⟨r, hr, ⟨-, h⟩ | ⟨-, h⟩⟩ := h.of_reply
  · obtain ⟨_, -, h⟩ := h.of_bind
    obtain ⟨_, -, ⟨-, h⟩ | ⟨-, h⟩⟩ := h.of_reply
    · rw [returns_pure.mp h]
      exact hr
    · cases returns_reject.mp h
  · rw [returns_pure.mp h]
    exact hr

/-- The rule that a recovery has gone on with was chosen by an error. -/
theorem returns_recoverWith {recovery : Value → Run Rule}
    (h : (p.recoverWith recovery input).Returns (.success rest v)) :
    (p input).Returns (.success rest v) ∨
      ∃ r e q, (p input).Returns r ∧ r.error.Returns e ∧ (recovery e).Returns q ∧
        (q input).Returns (.success rest v) := by
  obtain ⟨r, hr, ⟨-, h⟩ | ⟨-, h⟩⟩ := h.of_reply
  · rw [returns_pure.mp h]
    exact .inl hr
  · obtain ⟨e, he, h⟩ := h.of_bind
    obtain ⟨q, hq, h⟩ := h.of_bind
    exact .inr ⟨r, e, q, hr, he, hq, h⟩

section Repeat

/-- Matches of a rule in a row: from an input through their outputs to what
the last one leaves. -/
inductive Matches (p : Rule) : Value → List Value → Value → Prop
  | nil (input : Value) : Matches p input [] input
  | cons {input middle rest v : Value} {vs : List Value}
      (hv : (p input).Returns (.success middle v)) (hvs : Matches p middle vs rest) :
      Matches p input (v :: vs) rest

/-- Where a repetition stops after its last match: there, or where the attempt
after it failed. -/
def Stops (p : Rule) (last rest : Value) : Prop :=
  rest = last ∨ ∃ e, (p last).Returns (.failure rest e)

theorem returns_manyFrom {onStall : Nat → Run Unit} (n : Nat) : ∀ {input : Value}
    {outputs : List Value}, input.size = n →
    (manyFrom onStall p outputs input).Returns (.success rest v) →
    ∃ vs last, Matches p input vs last ∧ v = .list (outputs ++ vs) ∧ p.Stops last rest := by
  induction n using Nat.strongRecOn with
  | ind n ih =>
    intro input outputs hn h
    rw [manyFrom] at h
    obtain ⟨r, hr, ⟨htrue, h⟩ | ⟨hfalse, h⟩⟩ := h.of_reply
    · obtain ⟨next, hnext, h⟩ := h.of_bind
      obtain ⟨u, rfl⟩ := Value.eq_success_of_rest htrue hnext
      obtain ⟨_, -, h⟩ := h.of_bind
      by_cases hlt : next.size < input.size
      · simp only [if_pos hlt, Value.output_success, pure_bind] at h
        obtain ⟨vs, last, hvs, rfl, hstop⟩ := ih next.size (hn ▸ hlt) rfl h
        exact ⟨u :: vs, last, .cons hr hvs, by simp, hstop⟩
      · simp only [if_neg hlt] at h
        obtain ⟨_, -, h⟩ := h.of_bind
        obtain ⟨rfl, rfl⟩ := Value.success.inj (returns_accept.mp h)
        exact ⟨[], rest, .nil rest, by simp, .inl rfl⟩
    · obtain ⟨next, hnext, h⟩ := h.of_bind
      obtain ⟨e, rfl⟩ := Value.eq_failure_of_rest hfalse hnext
      obtain ⟨rfl, rfl⟩ := Value.success.inj (returns_accept.mp h)
      exact ⟨[], input, .nil input, by simp, .inr ⟨e, hr⟩⟩

theorem returns_many {onStall : Nat → Run Unit}
    (h : (p.many onStall input).Returns (.success rest v)) :
    ∃ vs last, Matches p input vs last ∧ v = .list vs ∧ p.Stops last rest :=
  returns_manyFrom input.size rfl h

theorem returns_atLeastFrom {count : Nat} {error : Value} (missing n : Nat) : ∀ {input : Value}
    {outputs : List Value}, count - outputs.length = missing → input.size = n →
    (atLeastFrom count error p outputs input).Returns (.success rest v) →
    ∃ vs last, Matches p input vs last ∧ v = .list (outputs ++ vs) ∧ p.Stops last rest := by
  induction missing using Nat.strongRecOn generalizing n with
  | ind missing ihmissing =>
  induction n using Nat.strongRecOn with
  | ind n ihn =>
    intro input outputs hmissing hn h
    rw [atLeastFrom] at h
    obtain ⟨r, hr, ⟨htrue, h⟩ | ⟨hfalse, h⟩⟩ := h.of_reply
    · obtain ⟨next, hnext, h⟩ := h.of_bind
      obtain ⟨u, rfl⟩ := Value.eq_success_of_rest htrue hnext
      obtain ⟨_, -, h⟩ := h.of_bind
      by_cases hstop : input.size ≤ next.size ∧ count ≤ outputs.length
      · simp only [if_pos hstop] at h
        obtain ⟨rfl, rfl⟩ := Value.success.inj (returns_accept.mp h)
        exact ⟨[], rest, .nil rest, by simp, .inl rfl⟩
      · simp only [if_neg hstop, Value.output_success, pure_bind] at h
        have hlength : (outputs ++ [u]).length = outputs.length + 1 := by simp
        have hmore : ∃ vs last, Matches p next vs last ∧ v = .list (outputs ++ [u] ++ vs) ∧
            p.Stops last rest := by
          by_cases hcount : count ≤ outputs.length
          · exact ihn next.size (by omega) (by omega) rfl h
          · exact ihmissing (count - (outputs.length + 1)) (by omega) next.size (by omega) rfl h
        obtain ⟨vs, last, hvs, rfl, hlast⟩ := hmore
        exact ⟨u :: vs, last, .cons hr hvs, by simp, hlast⟩
    · obtain ⟨next, hnext, h⟩ := h.of_bind
      obtain ⟨e, rfl⟩ := Value.eq_failure_of_rest hfalse hnext
      by_cases hcount : outputs.length < count
      · simp only [if_pos hcount] at h
        cases returns_reject.mp h
      · simp only [if_neg hcount] at h
        obtain ⟨rfl, rfl⟩ := Value.success.inj (returns_accept.mp h)
        exact ⟨[], input, .nil input, by simp, .inr ⟨e, hr⟩⟩

theorem returns_atLeast {count : Nat} {error : Value}
    (h : (p.atLeast count error input).Returns (.success rest v)) :
    ∃ vs last, Matches p input vs last ∧ v = .list vs ∧ p.Stops last rest :=
  returns_atLeastFrom _ input.size rfl rfl h

theorem returns_atMostFrom (allowed : Nat) : ∀ {input : Value} {outputs : List Value},
    (atMostFrom p allowed outputs input).Returns (.success rest v) →
    ∃ vs last, Matches p input vs last ∧ v = .list (outputs ++ vs) ∧ p.Stops last rest := by
  induction allowed with
  | zero =>
    intro input outputs h
    obtain ⟨rfl, rfl⟩ := Value.success.inj (returns_accept.mp h)
    exact ⟨[], rest, .nil rest, by simp, .inl rfl⟩
  | succ allowed ih =>
    intro input outputs h
    obtain ⟨r, hr, ⟨htrue, h⟩ | ⟨hfalse, h⟩⟩ := h.of_reply
    · obtain ⟨next, hnext, h⟩ := h.of_bind
      obtain ⟨u, rfl⟩ := Value.eq_success_of_rest htrue hnext
      obtain ⟨_, -, h⟩ := h.of_bind
      by_cases hlt : next.size < input.size
      · simp only [if_pos hlt, Value.output_success, pure_bind] at h
        obtain ⟨vs, last, hvs, rfl, hstop⟩ := ih h
        exact ⟨u :: vs, last, .cons hr hvs, by simp, hstop⟩
      · simp only [if_neg hlt] at h
        obtain ⟨rfl, rfl⟩ := Value.success.inj (returns_accept.mp h)
        exact ⟨[], rest, .nil rest, by simp, .inl rfl⟩
    · obtain ⟨next, hnext, h⟩ := h.of_bind
      obtain ⟨e, rfl⟩ := Value.eq_failure_of_rest hfalse hnext
      obtain ⟨rfl, rfl⟩ := Value.success.inj (returns_accept.mp h)
      exact ⟨[], input, .nil input, by simp, .inr ⟨e, hr⟩⟩

theorem returns_atMost {count : Nat} (h : (p.atMost count input).Returns (.success rest v)) :
    ∃ vs last, Matches p input vs last ∧ v = .list vs ∧ p.Stops last rest :=
  returns_atMostFrom count h

theorem returns_exactlyFrom {error : Value} (missing : Nat) : ∀ {input : Value}
    {outputs : List Value}, (exactlyFrom error p missing outputs input).Returns (.success rest v) →
    ∃ vs, Matches p input vs rest ∧ v = .list (outputs ++ vs) := by
  induction missing with
  | zero =>
    intro input outputs h
    obtain ⟨rfl, rfl⟩ := Value.success.inj (returns_accept.mp h)
    exact ⟨[], .nil rest, by simp⟩
  | succ missing ih =>
    intro input outputs h
    obtain ⟨r, hr, ⟨htrue, h⟩ | ⟨-, h⟩⟩ := h.of_reply
    · obtain ⟨u, hu, h⟩ := h.of_bind
      obtain ⟨next, hnext, h⟩ := h.of_bind
      obtain ⟨w, rfl⟩ := Value.eq_success_of_rest htrue hnext
      obtain rfl := Value.eq_of_output_success hu
      obtain ⟨vs, hvs, rfl⟩ := ih h
      exact ⟨u :: vs, .cons hr hvs, by simp⟩
    · obtain ⟨_, -, h⟩ := h.of_bind
      cases returns_reject.mp h

theorem returns_exactly {count : Nat} {error : Value}
    (h : (p.exactly count error input).Returns (.success rest v)) :
    ∃ vs, Matches p input vs rest ∧ v = .list vs :=
  returns_exactlyFrom count h

end Repeat

end Rule

end ParserCombinators
