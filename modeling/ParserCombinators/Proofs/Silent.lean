import ParserCombinators.Grammar.Rule
import ParserCombinators.Proofs.Logic

/-!
Runs that only end. They leave no events and make no parsers, so a run of which
they are a part does the same without them, unless they end it. Whatever combines
two operands is such a run.
-/

namespace ParserCombinators

open Run

variable {α β : Type}

/-- A run that only ends: nobody sees anything of it, and it makes no parsers. -/
def Run.Silent (r : Run α) : Prop := (∃ a, r = pure a) ∨ ∃ e, r = Run.fail e

theorem Run.silent_pure (a : α) : (pure a : Run α).Silent := .inl ⟨a, rfl⟩

theorem Run.silent_fail (e : Fault) : (Run.fail e : Run α).Silent := .inr ⟨e, rfl⟩

theorem Run.silent_ofOption (e : Fault) : ∀ o : Option α, (Run.ofOption e o).Silent
  | none => silent_fail e
  | some a => silent_pure a

theorem Run.Silent.bind {r : Run α} {f : α → Run β} (hr : r.Silent) (hf : ∀ a, (f a).Silent) :
    (r >>= f).Silent := by
  obtain ⟨a, rfl⟩ | ⟨e, rfl⟩ := hr
  · exact hf a
  · exact silent_fail e

theorem Run.Silent.eq_pure {r : Run α} {a : α} (hr : r.Silent) (ha : r.Returns a) : r = pure a := by
  obtain ⟨b, rfl⟩ | ⟨e, rfl⟩ := hr
  · rw [returns_pure.mp ha]
  · exact absurd ha not_returns_fail

theorem Value.silent_arithmetic (f : Int → Int → Int) (v w : Value) :
    (Value.arithmetic f v w).Silent :=
  (silent_ofOption _ _).bind fun _ => (silent_ofOption _ _).bind fun _ => silent_pure _

theorem Value.silent_plus (v w : Value) : (v.plus w).Silent := by
  unfold Value.plus
  split
  · exact silent_pure _
  · exact silent_arithmetic _ _ _

/-- A function of two arguments combines them silently. -/
theorem Callback.silent_apply_pair (v w : Value) : ∀ f : Callback, (f.apply [v, w]).Silent
  | .named _ f => silent_apply_pair v w f
  | .plus => Value.silent_plus v w
  | .minus => Value.silent_arithmetic _ v w
  | .times => Value.silent_arithmetic _ v w
  | .pack => silent_pure _
  | .identity | .duplicate | .display | .integer | .join | .length | .negate | .left | .right
  | .foldBranch | .foldAll | .sideAndValue | .isDigits | .isLetters | .isInteger | .const _
  | .get _ | .add _ | .modulo _ | .equal _ | .differ _ | .within _ | .raise _ | .compose _
  | .parser _ _ | .select _ | .exactlyOf _ _ | .atLeastOf _ _ | .literalOf _ | .pureOf
  | .failOf => silent_fail _

theorem Value.silent_invoke_pair (call : Grammar → Rule) (f v w : Value) :
    (f.invoke call [v, w]).Silent := by
  cases f with
  | function identity f => exact f.silent_apply_pair v w
  | _ => exact silent_fail _

end ParserCombinators
