import ParserCombinators.Proofs.Integer
import ParserCombinators.Proofs.Lexical

/-!
Rules that always answer. On every text such a rule does nothing but reply with
an outcome, whose rest is a suffix of the text and whose contents belong to
given sets. One exception is allowed for: where the text has a number with too
many digits, the run may end.
-/

namespace ParserCombinators

open Run

/-- Somewhere in the text is a row of more digits than a number may be read from. -/
def Text.HasLongNumber (t : Text) : Prop :=
  ∃ u digits v, t = u ++ (digits ++ v) ∧ Decimal digits ∧ maximalDigits < digits.length

theorem Text.HasLongNumber.of_suffix {t u : Text} (hu : u.HasLongNumber) (h : u <:+ t) :
    t.HasLongNumber := by
  obtain ⟨start, rfl⟩ := h
  obtain ⟨before, digits, after, rfl, hdigits, hlong⟩ := hu
  exact ⟨start ++ before, digits, after, by rw [List.append_assoc], hdigits, hlong⟩

theorem Text.HasLongNumber.lt_length {t : Text} (h : t.HasLongNumber) :
    maximalDigits < t.length := by
  obtain ⟨u, digits, v, rfl, -, hlong⟩ := h
  rw [List.length_append, List.length_append]
  omega

/-- What may come of a rule on a text. Only if integers `count` may a long number
end the run. -/
inductive Answer (count : Prop) (O E : Value → Prop) (t : Text) (r : Run Value) : Prop
  | success {u : Text} {v : Value} (heq : r = pure (.success (.text u) v)) (hu : u <:+ t) (hv : O v)
  | failure {u : Text} {e : Value} (heq : r = pure (.failure (.text u) e)) (hu : u <:+ t) (he : E e)
  | tooLong (heq : r = Run.fail .badValue) (hcount : count) (ht : t.HasLongNumber)

/-- On every text the rule answers, with outputs and errors from the given sets. -/
def Rule.Answers (count : Prop) (O E : Value → Prop) (p : Rule) : Prop :=
  ∀ t, Answer count O E t (p (.text t))

/-- Pairs of values from two sets. -/
def Value.PairOf (A B : Value → Prop) (v : Value) : Prop := ∃ a b, A a ∧ B b ∧ v = .tuple [a, b]

/-- Values from two sets, with the marker of their side. -/
def Value.SideOf (A B : Value → Prop) (v : Value) : Prop :=
  (∃ a, A a ∧ v = .branch .left a) ∨ ∃ b, B b ∧ v = .branch .right b

/-- Lists of values from a set. -/
def Value.ListOf (A : Value → Prop) (v : Value) : Prop := ∃ vs : List Value, v = .list vs ∧ ∀ w ∈ vs, A w

theorem Value.exists_texts {vs : List Value} (h : ∀ v ∈ vs, v.IsText) :
    ∃ ts : List Text, vs = ts.map .text := by
  induction vs with
  | nil => exact ⟨[], rfl⟩
  | cons v vs ih =>
    obtain ⟨⟨t, rfl⟩, hvs⟩ := List.forall_mem_cons.mp h
    obtain ⟨ts, rfl⟩ := ih hvs
    exact ⟨t :: ts, rfl⟩

variable {count : Prop} {O E O' E' U : Value → Prop} {t u : Text} {r : Run Value}

theorem Answer.of_suffix (h : Answer count O E u r) (hu : u <:+ t) : Answer count O E t r := by
  obtain ⟨heq, hrest, hv⟩ | ⟨heq, hrest, he⟩ | ⟨heq, hcount, hlong⟩ := h
  · exact .success heq (hrest.trans hu) hv
  · exact .failure heq (hrest.trans hu) he
  · exact .tooLong heq hcount (hlong.of_suffix hu)

namespace Rule

variable {p q : Rule} {error : Value}

theorem Answers.loosen (hp : p.Answers count O E) (hO : ∀ v, O v → O' v) (hE : ∀ e, E e → E' e) :
    p.Answers count O' E' := by
  intro t
  obtain ⟨heq, hu, hv⟩ | ⟨heq, hu, he⟩ | ⟨heq, hcount, hlong⟩ := hp t
  · exact .success heq hu (hO _ hv)
  · exact .failure heq hu (hE _ he)
  · exact .tooLong heq hcount hlong

/-- A rule that replies on every text, with outcomes of which the contents are
known. -/
theorem answers_of_fits
    (hp : (Logic.single True).Fits (Scope.suffixes .all) (.of O E) fun _ => p)
    (h : ∀ t, (∃ r, p (.text t) = pure r) ∨
      count ∧ t.HasLongNumber ∧ p (.text t) = Run.fail .badValue) : p.Answers count O E := by
  intro t
  obtain ⟨r, hr⟩ | ⟨hcount, hlong, hr⟩ := h t
  · have hresult : (p (.text t) 0).result = .ok r := congrArg (fun run => (run 0).result) hr
    have hreply := (hp (fun _ => .text t) ⟨.text t, trivial, rfl⟩ 0).2 r hresult
    generalize hfamily : (fun _ : Unit => r) = family at hreply
    obtain ⟨⟨n, rfl⟩, ⟨v, hv, rfl⟩⟩ | ⟨⟨n, rfl⟩, ⟨e, he, rfl⟩⟩ | ⟨⟨_, hfalse, -⟩, -⟩ := hreply
    · obtain rfl : r = _ := congrFun hfamily ()
      exact .success hr (List.drop_suffix n t) hv
    · obtain rfl : r = _ := congrFun hfamily ()
      exact .failure hr (List.drop_suffix n t) he
    · exact hfalse.elim
  · exact .tooLong hr hcount hlong

theorem answers_literal (s : Text) (error : Value) :
    (literal (.text s) error).Answers count Value.IsText (· = error) := by
  intro t
  by_cases h : s <+: t
  · obtain ⟨u, rfl⟩ := h
    exact .success (literal_text_append s u) (List.suffix_append s u) ⟨s, rfl⟩
  · exact .failure (literal_text_refuses h) (List.suffix_refl t) rfl

theorem answers_element {test : Value → Run Bool}
    (htest : ∀ c, ∃ b, test (.text [c]) = pure b) (error : Value) :
    (element test error).Answers count Value.IsText (· = error) := by
  intro t
  cases t with
  | nil => exact .failure element_text_nil (List.suffix_refl []) rfl
  | cons c t =>
    obtain ⟨b, hb⟩ := htest c
    cases b with
    | true => exact .success (element_text_cons hb t) (List.suffix_cons c t) ⟨[c], rfl⟩
    | false => exact .failure (element_text_refuses hb t) (List.suffix_refl _) rfl

theorem Answers.map {f : Value → Run Value} (hp : p.Answers count O E)
    (hf : ∀ v, O v → ∃ w, f v = pure w ∧ U w) : (p.map f).Answers count U E := by
  intro t
  unfold Rule.map
  obtain ⟨heq, hu, hv⟩ | ⟨heq, hu, he⟩ | ⟨heq, hcount, hlong⟩ := hp t
  · obtain ⟨w, hw, hU⟩ := hf _ hv
    refine .success ?_ hu hU
    simp only [heq, pure_bind, Value.isTrue_success, if_true, Value.rest_success,
      Value.output_success, hw, accept]
  · refine .failure ?_ hu he
    simp only [heq, pure_bind, Value.isTrue_failure, Bool.false_eq_true, if_false]
  · refine .tooLong ?_ hcount hlong
    rw [heq]
    rfl

theorem Answers.mapError {f : Value → Run Value} (hp : p.Answers count O E)
    (hf : ∀ e, E e → ∃ d, f e = pure d ∧ U d) : (p.mapError f).Answers count O U := by
  intro t
  unfold Rule.mapError
  obtain ⟨heq, hu, hv⟩ | ⟨heq, hu, he⟩ | ⟨heq, hcount, hlong⟩ := hp t
  · refine .success ?_ hu hv
    simp only [heq, pure_bind, Value.isTrue_success, if_true]
  · obtain ⟨d, hd, hU⟩ := hf _ he
    refine .failure ?_ hu hU
    simp only [heq, pure_bind, Value.isTrue_failure, Bool.false_eq_true, if_false,
      Value.rest_failure, Value.error_failure, hd, reject]
  · refine .tooLong ?_ hcount hlong
    rw [heq]
    rfl

theorem Answers.seq (hp : p.Answers count O E) (hq : q.Answers count O' E') :
    (p.seq q).Answers count (Value.PairOf O O') (Value.SideOf E E') := by
  intro t
  unfold Rule.seq
  obtain @⟨u, v, heq, hu, hv⟩ | @⟨u, e, heq, hu, he⟩ | ⟨heq, hcount, hlong⟩ := hp t
  · simp only [heq, pure_bind, Value.isTrue_success, if_true, Value.rest_success]
    obtain @⟨rest, w, heq', hrest, hw⟩ | @⟨rest, e, heq', hrest, he⟩ | ⟨heq', hcount, hlong⟩ := hq u
    · refine .success ?_ (hrest.trans hu) ⟨v, w, hv, hw, rfl⟩
      simp only [heq', pure_bind, Value.isTrue_success, if_true, Value.rest_success,
        Value.output_success, accept]
    · refine .failure ?_ (hrest.trans hu) (.inr ⟨e, he, rfl⟩)
      simp only [heq', pure_bind, Value.isTrue_failure, Bool.false_eq_true, if_false,
        Value.rest_failure, Value.error_failure, reject]
    · refine .tooLong ?_ hcount (hlong.of_suffix hu)
      rw [heq']
      rfl
  · refine .failure ?_ hu (.inl ⟨e, he, rfl⟩)
    simp only [heq, pure_bind, Value.isTrue_failure, Bool.false_eq_true, if_false,
      Value.rest_failure, Value.error_failure, reject]
  · refine .tooLong ?_ hcount hlong
    rw [heq]
    rfl

theorem Answers.maybe (hp : p.Answers count O E) :
    p.maybe.Answers count (fun _ => True) fun _ => False := by
  intro t
  unfold Rule.maybe
  obtain @⟨u, v, heq, hu, -⟩ | ⟨heq, -, -⟩ | ⟨heq, hcount, hlong⟩ := hp t
  · refine .success (v := v) ?_ hu trivial
    simp only [heq, pure_bind, Value.isTrue_success, if_true]
  · refine .success (v := .none) ?_ (List.suffix_refl t) trivial
    simp only [heq, pure_bind, Value.isTrue_failure, Bool.false_eq_true, if_false, accept]
  · refine .tooLong ?_ hcount hlong
    rw [heq]
    rfl

theorem Answers.not (hp : p.Answers count O E) :
    (p.not error).Answers count (fun _ => True) (· = error) := by
  intro t
  unfold Rule.not
  obtain ⟨heq, -, -⟩ | ⟨heq, -, -⟩ | ⟨heq, hcount, hlong⟩ := hp t
  · refine .failure ?_ (List.suffix_refl t) rfl
    simp only [heq, pure_bind, Value.isTrue_success, if_true, reject]
  · refine .success (v := .none) ?_ (List.suffix_refl t) trivial
    simp only [heq, pure_bind, Value.isTrue_failure, Bool.false_eq_true, if_false, accept]
  · refine .tooLong ?_ hcount hlong
    rw [heq]
    rfl

section Repetition

/-- The loop ends by itself, so only what it collects is followed. -/
theorem Answers.manyFrom (hp : p.Answers count O E) (n : Nat) :
    ∀ (outputs : List Value) (t : Text), (∀ v ∈ outputs, O v) → t.length = n →
      Answer count (Value.ListOf O) (fun _ => False) t
        (manyFrom (fun _ => pure ()) p outputs (.text t)) := by
  induction n using Nat.strongRecOn with
  | ind n ih =>
    intro outputs t houtputs hn
    rw [Rule.manyFrom]
    obtain @⟨u, v, heq, hu, hv⟩ | @⟨u, e, heq, hu, he⟩ | ⟨heq, hcount, hlong⟩ := hp t
    · have hcomparable : (Value.text u).comparable (.text t) = pure () := rfl
      simp only [heq, pure_bind, Value.isTrue_success, if_true, Value.rest_success, hcomparable,
        Value.output_success]
      by_cases hlt : (Value.text u).size < (Value.text t).size
      · rw [if_pos hlt]
        have houtputs' : ∀ w ∈ outputs ++ [v], O w := by
          intro w hw
          rcases List.mem_append.mp hw with hw | hw
          · exact houtputs w hw
          · exact List.mem_singleton.mp hw ▸ hv
        exact (ih u.length (hn ▸ hlt) (outputs ++ [v]) u houtputs' rfl).of_suffix hu
      · rw [if_neg hlt]
        exact .success rfl (List.suffix_refl t) ⟨outputs, rfl, houtputs⟩
    · simp only [heq, pure_bind, Value.isTrue_failure, Bool.false_eq_true, if_false,
        Value.rest_failure]
      exact .success rfl hu ⟨outputs, rfl, houtputs⟩
    · refine .tooLong ?_ hcount hlong
      rw [heq]
      rfl

theorem Answers.manyQuietly (hp : p.Answers count O E) :
    p.manyQuietly.Answers count (Value.ListOf O) fun _ => False :=
  fun t => hp.manyFrom t.length [] t (fun _ hv => nomatch hv) rfl

/-- Texts can be joined. -/
theorem Answers.manyJoined (hp : p.Answers count Value.IsText E) :
    p.manyJoined.Answers count Value.IsText fun _ => False := by
  refine hp.manyQuietly.map fun v hv => ?_
  obtain ⟨vs, rfl, hvs⟩ := hv
  obtain ⟨ts, rfl⟩ := Value.exists_texts hvs
  exact ⟨_, Value.join_texts ts, _, rfl⟩

end Repetition

section Sequences

variable {left right : Rule} {L R : Value → Prop}

theorem Answers.second (hp : p.Answers count (Value.PairOf O O') E) :
    p.second.Answers count O' E := by
  refine hp.map fun v hv => ?_
  obtain ⟨a, b, -, hb, rfl⟩ := hv
  exact ⟨b, Value.item_one_pair a b, hb⟩

theorem Answers.surroundedBy (hp : p.Answers count O E) (hleft : left.Answers count U L)
    (hright : right.Answers count O' R) :
    (p.surroundedBy left right).Answers count O (Value.SideOf (Value.SideOf L E) R) := by
  refine ((hleft.seq hp).seq hright).map fun v hv => ?_
  obtain ⟨_, c, ⟨a, b, -, hb, rfl⟩, -, rfl⟩ := hv
  exact ⟨b, rfl, hb⟩

end Sequences

end Rule

end ParserCombinators
