import ParserCombinators.Proofs.Bracketing
import ParserCombinators.Proofs.Silent

/-!
A common first part of alternatives. It may be taken out and run once, or be run
again with every alternative. As long as nothing depends on how often it is run, both
ways end alike: in the same match, under the markers of the same alternative, or with
the same errors, which are then grouped by the tree of the alternatives.
-/

namespace ParserCombinators

open Run

section Gives

variable {α β : Type}

/-- However many parsers have been made before, the run has the result. -/
def Run.Gives (r : Run α) (x : Except Fault α) : Prop := ∀ made, (r made).result = x

namespace Run.Gives

variable {r : Run α} {f : α → Run β} {a : α} {e : Fault} {x : Except Fault α}
  {y : Except Fault β}

theorem pure (a : α) : (Pure.pure a : Run α).Gives (.ok a) := fun _ => rfl

theorem fail (e : Fault) : (Run.fail e : Run α).Gives (.error e) := fun _ => rfl

theorem of_silent (h : r.Silent) : ∃ x, r.Gives x := by
  obtain ⟨a, rfl⟩ | ⟨e, rfl⟩ := h
  · exact ⟨_, pure a⟩
  · exact ⟨_, fail e⟩

theorem bind_ok (h : r.Gives (.ok a)) (hf : (f a).Gives y) : (r >>= f).Gives y := by
  intro made
  rw [bind_apply_ok (eq_of_result (h made))]
  exact hf _

theorem bind_error (h : r.Gives (.error e)) : (r >>= f).Gives (.error e) := by
  intro made
  rw [bind_apply_error (eq_of_result (h made))]

end Run.Gives

end Gives

namespace Rule

variable {p q : Rule} {input middle place rest v w d e : Value} {fault : Fault}

/-- Whenever the rule is run on an input, it breaks off with the same fault or replies
with the same outcome. -/
def IsFunctional (p : Rule) : Prop := p.RepliesOutcomes ∧ ∀ input, ∃ x, (p input).Gives x

theorem IsFunctional.cases (hp : p.IsFunctional) (input : Value) :
    (∃ fault, (p input).Gives (.error fault)) ∨
      (∃ rest v, (p input).Gives (.ok (.success rest v))) ∨
        ∃ rest e, (p input).Gives (.ok (.failure rest e)) := by
  obtain ⟨x, hx⟩ := hp.2 input
  cases x with
  | error fault => exact .inl ⟨fault, hx⟩
  | ok r =>
    obtain ⟨rest, hrest⟩ := hp.1 input r ⟨0, hx 0⟩
    cases r with
    | success rest v => exact .inr (.inl ⟨rest, v, hx⟩)
    | failure rest e => exact .inr (.inr ⟨rest, e, hx⟩)
    | _ => cases hrest

theorem silent_literal (pattern error input : Value) : (literal pattern error input).Silent := by
  have hlength : input.length.Silent := by
    unfold Value.length
    split
    · exact silent_pure _
    · exact silent_fail _
  refine (hlength.bind fun n => silent_pure _).bind fun cut => ?_
  dsimp only
  split
  · exact silent_pure _
  · exact silent_pure _

section Seq

theorem seq_gives_fault (hp : (p input).Gives (.error fault)) :
    (p.seq q input).Gives (.error fault) :=
  hp.bind_error

theorem seq_gives_left (hp : (p input).Gives (.ok (.failure rest e))) :
    (p.seq q input).Gives (.ok (.failure rest (.branch .left e))) :=
  hp.bind_ok (.pure _)

theorem seq_gives_second_fault (hp : (p input).Gives (.ok (.success middle v)))
    (hq : (q middle).Gives (.error fault)) : (p.seq q input).Gives (.error fault) :=
  hp.bind_ok hq.bind_error

theorem seq_gives_right (hp : (p input).Gives (.ok (.success middle v)))
    (hq : (q middle).Gives (.ok (.failure rest e))) :
    (p.seq q input).Gives (.ok (.failure rest (.branch .right e))) :=
  hp.bind_ok (hq.bind_ok (.pure _))

theorem seq_gives_success (hp : (p input).Gives (.ok (.success middle v)))
    (hq : (q middle).Gives (.ok (.success rest w))) :
    (p.seq q input).Gives (.ok (.success rest (.tuple [v, w]))) :=
  hp.bind_ok (hq.bind_ok (.pure _))

end Seq

section Alt

theorem alt_gives_fault (hp : (p input).Gives (.error fault)) :
    (p.alt q input).Gives (.error fault) :=
  hp.bind_error

theorem alt_gives_left (hp : (p input).Gives (.ok (.success rest v))) :
    (p.alt q input).Gives (.ok (.success rest (.branch .left v))) :=
  hp.bind_ok (.pure _)

theorem alt_gives_second_fault (hp : (p input).Gives (.ok (.failure place d)))
    (hq : (q input).Gives (.error fault)) : (p.alt q input).Gives (.error fault) :=
  hp.bind_ok hq.bind_error

theorem alt_gives_right (hp : (p input).Gives (.ok (.failure place d)))
    (hq : (q input).Gives (.ok (.success rest v))) :
    (p.alt q input).Gives (.ok (.success rest (.branch .right v))) :=
  hp.bind_ok (hq.bind_ok (.pure _))

theorem alt_gives_failure (hp : (p input).Gives (.ok (.failure place d)))
    (hq : (q input).Gives (.ok (.failure rest e))) :
    (p.alt q input).Gives (.ok (.failure input (.tuple [d, e]))) :=
  hp.bind_ok (hq.bind_ok (.pure _))

end Alt

end Rule

namespace Bracketing

section Shape

variable {α β : Type}

def map (f : α → β) : Bracketing α → Bracketing β
  | leaf a => leaf (f a)
  | node left right => node (left.map f) (right.map f)

/-- Only one value under the markers on the path to a leaf looks as it does. -/
theorem mark_inj (t : Bracketing α) {i j : Nat} {v w : Value} (hi : i < t.leaves.length)
    (hj : j < t.leaves.length) (h : t.mark i v = t.mark j w) : i = j ∧ v = w := by
  induction t generalizing i j with
  | leaf a =>
    have hlength : (leaf a).leaves.length = 1 := rfl
    exact ⟨by omega, h⟩
  | node left right ihleft ihright =>
    have hlength : (node left right).leaves.length = left.leaves.length + right.leaves.length :=
      List.length_append ..
    rcases Nat.lt_or_ge i left.leaves.length with hileft | hiright
    · rcases Nat.lt_or_ge j left.leaves.length with hjleft | hjright
      · rw [mark_node_left hileft, mark_node_left hjleft] at h
        exact ihleft hileft hjleft (Value.branch.inj h).2
      · obtain ⟨j, rfl⟩ := Nat.exists_eq_add_of_le hjright
        rw [mark_node_left hileft, mark_node_right] at h
        cases (Value.branch.inj h).1
    · obtain ⟨i, rfl⟩ := Nat.exists_eq_add_of_le hiright
      rcases Nat.lt_or_ge j left.leaves.length with hjleft | hjright
      · rw [mark_node_right, mark_node_left hjleft] at h
        cases (Value.branch.inj h).1
      · obtain ⟨j, rfl⟩ := Nat.exists_eq_add_of_le hjright
        rw [mark_node_right, mark_node_right] at h
        obtain ⟨rfl, rfl⟩ := ihright (by omega) (by omega) (Value.branch.inj h).2
        exact ⟨rfl, rfl⟩

/-- Values in nested pairs can be read off again. -/
theorem nest_inj (t : Bracketing α) {vs ws : List Value} (hvs : vs.length = t.leaves.length)
    (hws : ws.length = t.leaves.length) (h : t.nest vs = t.nest ws) : vs = ws := by
  induction t generalizing vs ws with
  | leaf a =>
    obtain ⟨v, rfl⟩ := List.length_eq_one_iff.mp hvs
    obtain ⟨w, rfl⟩ := List.length_eq_one_iff.mp hws
    exact congrArg (fun v => [v]) h
  | node left right ihleft ihright =>
    have hlength : (node left right).leaves.length = left.leaves.length + right.leaves.length :=
      List.length_append ..
    rw [nest, nest] at h
    simp only [Value.tuple.injEq, List.cons.injEq, and_true] at h
    have hfirst := ihleft (by simp; omega) (by simp; omega) h.1
    have hsecond := ihright (by simp; omega) (by simp; omega) h.2
    rw [← List.take_append_drop left.leaves.length vs, hfirst, hsecond, List.take_append_drop]

end Shape

/-- The alternatives fail with the errors of all leaves, and at the input if there are
several. -/
def FailsWith (t : Bracketing Grammar) (input : Value) (es : List Value)
    (y : Except Fault Value) : Prop :=
  ∃ place, (t.IsNode → place = input) ∧ y = .ok (.failure place (t.nest es))

/-- How alternatives after a common part end, and the alternatives that each begin with
it. The common part has matched with output `v`. -/
inductive Distributes (t : Bracketing Grammar) (input v : Value) :
    Except Fault Value → Except Fault Value → Prop
  | fault (fault : Fault) : Distributes t input v (.error fault) (.error fault)
  | matched {i : Nat} (rest w : Value) (hi : i < t.leaves.length) :
      Distributes t input v (.ok (.success rest (t.mark i w)))
        (.ok (.success rest (t.mark i (.tuple [v, w]))))
  | unmatched {es : List Value} {y : Except Fault Value} (rest : Value)
      (hes : es.length = t.leaves.length) (h : t.FailsWith input (es.map (.branch .right)) y) :
      Distributes t input v (.ok (.failure rest (t.nest es))) y

variable {depth : Nat} {a : Grammar} {t : Bracketing Grammar} {input middle rest v e : Value}

/-- The alternatives, each with the common part before it. -/
def before (a : Grammar) (t : Bracketing Grammar) : Grammar := (t.map (.join .seq a)).alt

theorem run_before_leaf (g : Grammar) :
    (before a (leaf g)).run depth = (a.run depth).seq (g.run depth) :=
  Grammar.run_join ..

theorem run_before_node (left right : Bracketing Grammar) :
    (before a (node left right)).run depth =
      ((before a left).run depth).alt ((before a right).run depth) :=
  Grammar.run_join ..

theorem run_alt_of_node (left right : Bracketing Grammar) :
    (node left right).alt.run depth = (left.alt.run depth).alt (right.alt.run depth) :=
  Grammar.run_join ..

theorem before_gives_fault {fault : Fault} (ha : (a.run depth input).Gives (.error fault))
    (t : Bracketing Grammar) : ((before a t).run depth input).Gives (.error fault) := by
  induction t with
  | leaf g =>
    rw [run_before_leaf]
    exact Rule.seq_gives_fault ha
  | node left right ihleft _ =>
    rw [run_before_node]
    exact Rule.alt_gives_fault ihleft

/-- If the common part fails, every alternative does. -/
theorem before_gives_failure (ha : (a.run depth input).Gives (.ok (.failure rest e)))
    (t : Bracketing Grammar) : ∃ y, ((before a t).run depth input).Gives y ∧
      t.FailsWith input (List.replicate t.leaves.length (.branch .left e)) y := by
  induction t with
  | leaf g =>
    rw [run_before_leaf]
    exact ⟨_, Rule.seq_gives_left ha, rest, False.elim, rfl⟩
  | node left right ihleft ihright =>
    obtain ⟨_, hleft, _, -, rfl⟩ := ihleft
    obtain ⟨_, hright, _, -, rfl⟩ := ihright
    rw [run_before_node]
    refine ⟨_, Rule.alt_gives_failure hleft hright, input, fun _ => rfl, ?_⟩
    rw [leaves, List.length_append, ← List.replicate_append_replicate,
      nest_node List.length_replicate]

/-- If the common part matches, the alternatives go on alike from what it leaves. The
induction is on the tree: one that is tried later is tried in both ways or in neither. -/
theorem exists_distributes (ha : (a.run depth input).Gives (.ok (.success middle v)))
    (ht : ∀ g ∈ t.leaves, (g.run depth).IsFunctional) :
    ∃ x y, (t.alt.run depth middle).Gives x ∧ ((before a t).run depth input).Gives y ∧
      t.Distributes input v x y := by
  induction t with
  | leaf g =>
    have hg : (g.run depth).IsFunctional := ht g (List.mem_singleton_self g)
    rw [run_before_leaf]
    obtain ⟨fault, h⟩ | ⟨rest, w, h⟩ | ⟨rest, e, h⟩ := hg.cases middle
    · exact ⟨_, _, h, Rule.seq_gives_second_fault ha h, .fault fault⟩
    · have hfirst : 0 < (leaf g).leaves.length := Nat.one_pos
      exact ⟨_, _, h, Rule.seq_gives_success ha h, .matched rest w hfirst⟩
    · have hlength : [e].length = (leaf g).leaves.length := rfl
      exact ⟨_, _, h, Rule.seq_gives_right ha h, .unmatched rest hlength ⟨rest, False.elim, rfl⟩⟩
  | node left right ihleft ihright =>
    obtain ⟨x, y, hx, hy, hleft⟩ := ihleft fun g hg => ht g (List.mem_append_left _ hg)
    obtain ⟨x', y', hx', hy', hright⟩ := ihright fun g hg => ht g (List.mem_append_right _ hg)
    have hlength : (node left right).leaves.length = left.leaves.length + right.leaves.length :=
      List.length_append ..
    rw [run_alt_of_node, run_before_node]
    cases hleft with
    | fault fault =>
      exact ⟨_, _, Rule.alt_gives_fault hx, Rule.alt_gives_fault hy, .fault fault⟩
    | matched rest w hi =>
      refine ⟨_, _, Rule.alt_gives_left hx, Rule.alt_gives_left hy, ?_⟩
      rw [← mark_node_left hi, ← mark_node_left hi]
      exact .matched rest w (by omega)
    | unmatched _ hes hfails =>
      obtain ⟨_, -, rfl⟩ := hfails
      cases hright with
      | fault fault =>
        exact ⟨_, _, Rule.alt_gives_second_fault hx hx', Rule.alt_gives_second_fault hy hy',
          .fault fault⟩
      | matched rest w hi =>
        refine ⟨_, _, Rule.alt_gives_right hx hx', Rule.alt_gives_right hy hy', ?_⟩
        rw [← mark_node_right, ← mark_node_right]
        exact .matched rest w (by omega)
      | unmatched _ hds hfails =>
        obtain ⟨_, -, rfl⟩ := hfails
        refine ⟨_, _, Rule.alt_gives_failure hx hx', Rule.alt_gives_failure hy hy', ?_⟩
        rw [← nest_node hes, ← nest_node (by rw [List.length_map, hes]), ← List.map_append]
        refine .unmatched middle ?_ ⟨input, fun _ => rfl, rfl⟩
        rw [List.length_append, hes, hds, hlength]

/-- A common part with the alternatives after it ends in `x`, and the alternatives that
each begin with it end in `y`. -/
structure Factors (t : Bracketing Grammar) (input : Value) (x y : Except Fault Value) : Prop where
  fault_iff : ∀ fault, x = .error fault ↔ y = .error fault
  success_iff : ∀ i < t.leaves.length, ∀ rest v w,
    x = .ok (.success rest (.tuple [v, t.mark i w])) ↔
      y = .ok (.success rest (t.mark i (.tuple [v, w])))
  pair_of_success : ∀ rest u, x = .ok (.success rest u) →
    ∃ i < t.leaves.length, ∃ v w, u = .tuple [v, t.mark i w]
  marked_of_success : ∀ rest u, y = .ok (.success rest u) →
    ∃ i < t.leaves.length, ∃ v w, u = t.mark i (.tuple [v, w])
  failure_iff : (∃ rest e, x = .ok (.failure rest e)) ↔ ∃ rest e, y = .ok (.failure rest e)
  left_or_right : ∀ rest e, x = .ok (.failure rest e) → (∃ d, e = .branch .left d) ∨
    ∃ es, es.length = t.leaves.length ∧ e = .branch .right (t.nest es)
  left : ∀ rest e, x = .ok (.failure rest (.branch .left e)) →
    t.FailsWith input (List.replicate t.leaves.length (.branch .left e)) y
  right : ∀ rest es, es.length = t.leaves.length →
    x = .ok (.failure rest (.branch .right (t.nest es))) →
    t.FailsWith input (es.map (.branch .right)) y

section Factors

variable {x y : Except Fault Value}

theorem factors_fault (t : Bracketing Grammar) (input : Value) (fault : Fault) :
    t.Factors input (.error fault) (.error fault) := by
  constructor <;> simp

theorem factors_success {i : Nat} (hi : i < t.leaves.length) (rest v w : Value) :
    t.Factors input (.ok (.success rest (.tuple [v, t.mark i w])))
      (.ok (.success rest (t.mark i (.tuple [v, w])))) where
  fault_iff := by simp
  success_iff j hj rest' v' w' := by
    simp only [Except.ok.injEq, Value.success.injEq, Value.tuple.injEq, List.cons.injEq, and_true]
    constructor
    · rintro ⟨rfl, rfl, h⟩
      obtain ⟨rfl, rfl⟩ := t.mark_inj hi hj h
      exact ⟨rfl, rfl⟩
    · rintro ⟨rfl, h⟩
      obtain ⟨rfl, hpair⟩ := t.mark_inj hi hj h
      cases hpair
      exact ⟨rfl, rfl, rfl⟩
  pair_of_success _ _ h := by
    cases h
    exact ⟨i, hi, v, w, rfl⟩
  marked_of_success _ _ h := by
    cases h
    exact ⟨i, hi, v, w, rfl⟩
  failure_iff := by simp
  left_or_right := nofun
  left := nofun
  right := nofun

theorem factors_left (h : t.FailsWith input (List.replicate t.leaves.length (.branch .left e)) y)
    (rest : Value) : t.Factors input (.ok (.failure rest (.branch .left e))) y := by
  obtain ⟨place, hplace, rfl⟩ := h
  refine ⟨by simp, by simp, nofun, nofun, by simp, ?_, ?_, nofun⟩
  · intro _ _ h
    cases h
    exact .inl ⟨e, rfl⟩
  · intro _ _ h
    cases h
    exact ⟨place, hplace, rfl⟩

theorem factors_right {es : List Value} (hes : es.length = t.leaves.length)
    (h : t.FailsWith input (es.map (.branch .right)) y) (rest : Value) :
    t.Factors input (.ok (.failure rest (.branch .right (t.nest es)))) y := by
  obtain ⟨place, hplace, rfl⟩ := h
  refine ⟨by simp, by simp, nofun, nofun, by simp, ?_, nofun, ?_⟩
  · intro _ _ h
    cases h
    exact .inr ⟨es, hes, rfl⟩
  · intro _ ds hds h
    simp only [Except.ok.injEq, Value.failure.injEq, Value.branch.injEq, true_and] at h
    rw [← t.nest_inj hes hds h.2]
    exact ⟨place, hplace, rfl⟩

end Factors

/-- Alternatives may be tried after a common part, or each of them with the common part
before it. If all parsers are functions of their input, the two break off alike, match
alike and fail alike. The first marks the alternative inside its output, the second
around it, and the second has the common part's error once for every alternative. -/
theorem run_factors (ha : (a.run depth).IsFunctional)
    (ht : ∀ g ∈ t.leaves, (g.run depth).IsFunctional) (input : Value) :
    ∃ x y, ((Grammar.join .seq a t.alt).run depth input).Gives x ∧
      ((before a t).run depth input).Gives y ∧ t.Factors input x y := by
  rw [Grammar.run_join]
  obtain ⟨fault, h⟩ | ⟨middle, v, h⟩ | ⟨rest, e, h⟩ := ha.cases input
  · exact ⟨_, _, Rule.seq_gives_fault h, before_gives_fault h t, factors_fault t input fault⟩
  · obtain ⟨x, y, hx, hy, hboth⟩ := exists_distributes h ht
    cases hboth with
    | fault fault => exact ⟨_, _, Rule.seq_gives_second_fault h hx, hy, factors_fault t input fault⟩
    | matched rest w hi =>
      exact ⟨_, _, Rule.seq_gives_success h hx, hy, factors_success hi rest v w⟩
    | unmatched rest hes hfails =>
      exact ⟨_, _, Rule.seq_gives_right h hx, hy, factors_right hes hfails rest⟩
  · obtain ⟨y, hy, hfails⟩ := before_gives_failure h t
    exact ⟨_, _, Rule.seq_gives_left h, hy, factors_left hfails rest⟩

theorem isFunctional_letter (depth : Nat) (c : Text) :
    ((threeLetters.letter c).run depth).IsFunctional := by
  refine ⟨letter_repliesOutcomes c depth, fun input => ?_⟩
  rw [threeLetters.letter, Grammar.run_leaf]
  exact Gives.of_silent (Rule.silent_literal (.text c) (.text ("no " ++ c)) input)

theorem isFunctional_threeLetters (depth : Nat) :
    ∀ g ∈ threeLetters.leaves, (g.run depth).IsFunctional := by
  intro g hg
  change g ∈ [("a" : Text), "b", "c"].map threeLetters.letter at hg
  obtain ⟨c, -, rfl⟩ := List.mem_map.mp hg
  exact isFunctional_letter depth c

/-- The second of three letters after a common one. -/
theorem run_factors_threeLetters :
    ((threeLetters.letter "x").run 0).IsFunctional ∧
      (∀ g ∈ threeLetters.leaves, (g.run 0).IsFunctional) ∧
      ∃ x y, ((Grammar.join .seq (threeLetters.letter "x") threeLetters.alt).run 0
          (.text "xbd")).Gives x ∧
        ((before (threeLetters.letter "x") threeLetters).run 0 (.text "xbd")).Gives y ∧
        threeLetters.Factors (.text "xbd") x y := by
  have hcommon := isFunctional_letter 0 "x"
  have hleaves := isFunctional_threeLetters 0
  exact ⟨hcommon, hleaves, run_factors hcommon hleaves (.text "xbd")⟩

end Bracketing

end ParserCombinators
