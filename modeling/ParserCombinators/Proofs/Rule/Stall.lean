import ParserCombinators.Lexical.Blank
import ParserCombinators.Proofs.Logic

/-!
A repetition that tells of its stall. It does the same as the one that keeps
silent, and logs at most one line, at its end.
-/

namespace ParserCombinators

open Run

/-- A trace like another one, with at most one line more that is logged at its end. -/
structure Trace.LogsMore {α : Type} (t t' : Trace α) : Prop where
  events : ∃ line? : Option Text, t'.events = t.events ++ line?.toList.map .log
  made : t'.made = t.made
  result : t'.result = t.result

namespace Trace.LogsMore

variable {α β : Type}

theorem refl (t : Trace α) : t.LogsMore t := ⟨⟨none, by simp⟩, rfl, rfl⟩

/-- What comes after the same run may log the line. -/
theorem bind {r : Run α} {f g : α → Run β}
    (h : ∀ a, r.Returns a → ∀ made, (f a made).LogsMore (g a made)) (made : Nat) :
    ((r >>= f) made).LogsMore ((r >>= g) made) := by
  rcases hr : r made with ⟨events, made', e | a⟩
  · rw [bind_apply_error hr, bind_apply_error hr]
    exact refl _
  · rw [bind_apply_ok hr, bind_apply_ok hr]
    obtain ⟨⟨line?, hevents⟩, hmade, hresult⟩ := h a ⟨made, by rw [hr]⟩ made'
    refine ⟨⟨line?, ?_⟩, hmade, hresult⟩
    rw [hevents, List.append_assoc]

theorem map {r s : Run α} {made : Nat} (h : (r made).LogsMore (s made)) (f : α → β) :
    ((f <$> r) made).LogsMore ((f <$> s) made) := by
  rw [map_apply, map_apply]
  exact ⟨h.events, h.made, by rw [h.result]⟩

end Trace.LogsMore

namespace Rule

/-- The loop of `many` with and without a line for its stall. -/
theorem logsMore_manyFrom (p : Rule) (line : Nat → Text) (n : Nat) :
    ∀ (outputs : List Value) (rest : Value) (made : Nat), rest.size = n →
      (manyFrom (fun _ => pure ()) p outputs rest made).LogsMore
        (manyFrom (fun left => Run.log (line left)) p outputs rest made) := by
  induction n using Nat.strongRecOn with
  | ind n ih =>
    intro outputs rest made hn
    rw [manyFrom, manyFrom]
    refine Trace.LogsMore.bind (fun r _ made => ?_) made
    by_cases htrue : r.isTrue = true
    · simp only [if_pos htrue]
      refine Trace.LogsMore.bind (fun next _ made => ?_) made
      refine Trace.LogsMore.bind (fun _ _ made => ?_) made
      by_cases hlt : next.size < rest.size
      · simp only [if_pos hlt]
        exact Trace.LogsMore.bind (fun v _ made => ih next.size (hn ▸ hlt) _ next made rfl) made
      · simp only [if_neg hlt]
        exact ⟨⟨some (line rest.size), rfl⟩, rfl, rfl⟩
    · simp only [if_neg htrue]
      exact .refl _

theorem logsMore_many (p : Rule) (line : Nat → Text) (input : Value) (made : Nat) :
    (p.manyQuietly input made).LogsMore (p.many (fun left => Run.log (line left)) input made) :=
  logsMore_manyFrom p line input.size [] input made rfl

end Rule

end ParserCombinators
