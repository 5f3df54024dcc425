import ParserCombinators.Proofs.Shapes.Soundness

/-!
Sequences and alternatives of many parsers, put together two by two in any
order. A bracketing is a binary tree with the parsers at its leaves. Whatever
its shape, the leaves are run from left to right until one of them decides. The
shape shows only in how the contents of the outcomes are grouped: all of them
as nested pairs, or the deciding one under the markers on the path to its leaf.
-/

namespace ParserCombinators

open Run

inductive Bracketing (α : Type)
  | leaf (a : α)
  | node (left right : Bracketing α)

namespace Bracketing

variable {α : Type}

def leaves : Bracketing α → List α
  | leaf a => [a]
  | node left right => left.leaves ++ right.leaves

def IsNode : Bracketing α → Prop
  | leaf _ => False
  | node _ _ => True

/-- The sides taken on the way from the root to a leaf. -/
def path : Bracketing α → Nat → List Side
  | leaf _, _ => []
  | node left right, i =>
    if i < left.leaves.length then .left :: left.path i
    else .right :: right.path (i - left.leaves.length)

/-- A value under the markers on the path to a leaf. -/
def mark (t : Bracketing α) (i : Nat) (v : Value) : Value := (t.path i).foldr .branch v

/-- Values, one for each leaf, as nested pairs. -/
def nest : Bracketing α → List Value → Value
  | leaf _, vs => vs.headD .none
  | node left right, vs =>
    .tuple [left.nest (vs.take left.leaves.length), right.nest (vs.drop left.leaves.length)]

def seq : Bracketing Grammar → Grammar
  | leaf g => g
  | node left right => .join .seq left.seq right.seq

def alt : Bracketing Grammar → Grammar
  | leaf g => g
  | node left right => .join .alt left.alt right.alt

section Nodes

variable {left right : Bracketing α}

theorem mark_node_left {i : Nat} (h : i < left.leaves.length) (v : Value) :
    (node left right).mark i v = .branch .left (left.mark i v) := by
  simp only [mark, path, if_pos h, List.foldr_cons]

theorem mark_node_right (i : Nat) (v : Value) :
    (node left right).mark (left.leaves.length + i) v = .branch .right (right.mark i v) := by
  have hnot : ¬ left.leaves.length + i < left.leaves.length := by omega
  have hsub : left.leaves.length + i - left.leaves.length = i := by omega
  simp only [mark, path, if_neg hnot, hsub, List.foldr_cons]

theorem nest_node {vs ws : List Value} (h : vs.length = left.leaves.length) :
    (node left right).nest (vs ++ ws) = .tuple [left.nest vs, right.nest ws] := by
  rw [nest, ← h, List.take_left, List.drop_left]

end Nodes

/-- Folding takes off the markers of a path. -/
theorem foldAll_mark (t : Bracketing α) (i : Nat) (v : Value) :
    (t.mark i v).foldAll = v.foldAll := by
  unfold mark
  induction t.path i with
  | nil => rfl
  | cons side path ih => exact ih

end Bracketing

/-- A value that is no marker is not folded. -/
theorem Value.foldAll_of_unmarked {v : Value} (h : ∀ side w, v ≠ .branch side w) :
    v.foldAll = v := by
  cases v with
  | branch side w => exact absurd rfl (h side w)
  | _ => rfl

section Scan

/-- What a reply means for the rules after it: they go on at an input, with one
more content, or the reply decides. -/
inductive Step
  | proceed (next content : Value)
  | decide (rest content : Value)

/-- In a sequence a success goes on at what it leaves and a failure decides. -/
def Step.inSequence (_ : Value) : Value → Option Step
  | .success rest v => some (.proceed rest v)
  | .failure rest e => some (.decide rest e)
  | _ => none

/-- Among alternatives a failure goes on at the same input and a success decides. -/
def Step.amongAlternatives (input : Value) : Value → Option Step
  | .success rest v => some (.decide rest v)
  | .failure _ e => some (.proceed input e)
  | _ => none

/-- How a row of rules ends: all of them have gone on, or one has decided. -/
inductive Scan
  | through (contents : List Value) (next : Value)
  | decided (index : Nat) (rest content : Value)

namespace Scan

/-- The end of a row with rules before it that have gone on. -/
def after (contents : List Value) : Scan → Scan
  | through more next => through (contents ++ more) next
  | decided i rest content => decided (contents.length + i) rest content

/-- The ends that a row of so many rules can have. -/
def Fits (n : Nat) : Scan → Prop
  | through contents _ => contents.length = n
  | decided i _ _ => i < n

theorem after_nil : after [] = id := by
  funext scan
  cases scan with
  | through more next => rfl
  | decided i rest content => simp [after]

theorem after_after (vs ws : List Value) (scan : Scan) :
    (scan.after ws).after vs = scan.after (vs ++ ws) := by
  cases scan with
  | through more next => simp [after]
  | decided i rest content => simp [after, Nat.add_assoc]

theorem Fits.after {scan : Scan} {m n : Nat} {vs : List Value} (h : scan.Fits n)
    (hm : vs.length = m) : (scan.after vs).Fits (m + n) := by
  cases scan with
  | through more next =>
    have hlength : more.length = n := h
    show (vs ++ more).length = m + n
    rw [List.length_append, hm, hlength]
  | decided i rest content =>
    have hlt : i < n := h
    show vs.length + i < m + n
    omega

end Scan

variable {step : Value → Value → Option Step}

/-- Runs rules in a row, each at most once, until one decides. Each is given the
input at which the one before it has gone on. -/
def scan (step : Value → Value → Option Step) : List Rule → Value → Run Scan
  | [], input => pure (.through [] input)
  | p :: ps, input => do
    let r ← p input
    match step input r with
    | some (.proceed next content) => Scan.after [content] <$> scan step ps next
    | some (.decide rest content) => pure (.decided 0 rest content)
    | none => Run.fail .noField

/-- What follows a row of rules. -/
def scanAfter (step : Value → Value → Option Step) (qs : List Rule) : Scan → Run Scan
  | .through contents next => Scan.after contents <$> scan step qs next
  | .decided i rest content => pure (.decided i rest content)

theorem map_after_scanAfter (qs : List Rule) (vs : List Value) (s : Scan) :
    Scan.after vs <$> scanAfter step qs s = scanAfter step qs (s.after vs) := by
  cases s with
  | through contents next =>
    show Scan.after vs <$> Scan.after contents <$> scan step qs next =
      Scan.after (vs ++ contents) <$> scan step qs next
    rw [Functor.map_map]
    simp only [Scan.after_after]
  | decided i rest content => rfl

theorem scan_append (ps qs : List Rule) (input : Value) :
    scan step (ps ++ qs) input = scan step ps input >>= scanAfter step qs := by
  induction ps generalizing input with
  | nil => simp [scan, scanAfter, Scan.after_nil]
  | cons p ps ih =>
    rw [List.cons_append, scan, scan, bind_assoc]
    refine congrArg _ (funext fun r => ?_)
    cases step input r with
    | none => rfl
    | some s =>
      cases s with
      | decide rest content => rfl
      | proceed next content =>
        show Scan.after [content] <$> scan step (ps ++ qs) next =
          (Scan.after [content] <$> scan step ps next) >>= scanAfter step qs
        rw [ih, map_bind, bind_map_left]
        simp only [map_after_scanAfter]

theorem fits_of_returns_scan (ps : List Rule) : ∀ {input : Value} {s : Scan},
    (scan step ps input).Returns s → s.Fits ps.length := by
  induction ps with
  | nil =>
    intro input s h
    rw [returns_pure.mp h]
    rfl
  | cons p ps ih =>
    intro input s h
    obtain ⟨r, -, h⟩ := h.of_bind
    cases hstep : step input r with
    | none =>
      simp only [hstep] at h
      exact absurd h not_returns_fail
    | some d =>
      simp only [hstep] at h
      cases d with
      | decide rest content =>
        rw [returns_pure.mp h]
        exact Nat.succ_pos ps.length
      | proceed next content =>
        simp only [map_eq_pure_bind] at h
        obtain ⟨s', hs', h⟩ := h.of_bind
        rw [returns_pure.mp h, List.length_cons, Nat.add_comm]
        exact (ih hs').after rfl

/-- Alternatives go on at the input that all of them are given. -/
theorem next_of_returns_alternatives (ps : List Rule) : ∀ {input next : Value}
    {contents : List Value}, (scan Step.amongAlternatives ps input).Returns (.through contents next) →
    next = input := by
  induction ps with
  | nil =>
    intro input next contents h
    exact (Scan.through.inj (returns_pure.mp h)).2
  | cons p ps ih =>
    intro input next contents h
    obtain ⟨r, -, h⟩ := h.of_bind
    cases r with
    | success rest v => cases returns_pure.mp h
    | failure rest e =>
      have hscan : (Scan.after [e] <$> scan Step.amongAlternatives ps input).Returns
          (.through contents next) := h
      rw [map_eq_pure_bind] at hscan
      obtain ⟨s, hs, hscan⟩ := hscan.of_bind
      cases s with
      | through more last =>
        obtain ⟨-, rfl⟩ := Scan.through.inj (returns_pure.mp hscan)
        exact ih hs
      | decided i rest content => cases returns_pure.mp hscan
    | _ => exact absurd h not_returns_fail

end Scan

namespace Scan

variable {α : Type}

/-- The reply of a sequence in a bracketing. -/
def sequenceReply (t : Bracketing α) : Scan → Value
  | through vs next => .success next (t.nest vs)
  | decided i rest e => .failure rest (t.mark i e)

/-- The reply of such a sequence when all markers are taken off its error. -/
def foldedReply (t : Bracketing α) : Scan → Value
  | through vs next => .success next (t.nest vs)
  | decided _ rest e => .failure rest e.foldAll

/-- The reply of alternatives in a bracketing. -/
def alternativesReply (t : Bracketing α) (input : Value) : Scan → Value
  | through es _ => .failure input (t.nest es)
  | decided i rest v => .success rest (t.mark i v)

end Scan

namespace Bracketing

/-- A single parser is a row of one, for whatever takes the same from its reply
and from the reply of the row. -/
theorem bind_eq_bind_scan {β : Type} {step : Value → Value → Option Step} {reply : Scan → Value}
    {p : Rule} (hp : p.RepliesOutcomes) {input : Value} {f : Value → Run β}
    (hstep : ∀ r rest, r.rest? = some rest → (∃ next content,
      step input r = some (.proceed next content) ∧ f (reply (.through [content] next)) = f r) ∨
        ∃ rest content, step input r = some (.decide rest content) ∧
          f (reply (.decided 0 rest content)) = f r) :
    p input >>= f = (reply <$> scan step [p] input) >>= f := by
  rw [bind_map_left, scan, bind_assoc]
  refine bind_congr_of_returns fun r hr => ?_
  obtain ⟨rest, hrest⟩ := hp input r hr
  obtain ⟨next, content, hproceed, hreply⟩ | ⟨rest, content, hdecide, hreply⟩ := hstep r rest hrest
  · rw [hproceed]
    simp [scan, Scan.after, hreply]
  · rw [hdecide]
    simp [hreply]

variable {depth : Nat}

/-- The rules of the leaves at a depth. -/
def rules (depth : Nat) (t : Bracketing Grammar) : List Rule := t.leaves.map fun g => g.run depth

theorem rules_node (left right : Bracketing Grammar) :
    (node left right).rules depth = left.rules depth ++ right.rules depth :=
  List.map_append ..

theorem length_rules (t : Bracketing Grammar) : (t.rules depth).length = t.leaves.length :=
  List.length_map ..

/-- The induction is on the tree: the leaves on the right are run after those
on the left, if these have all gone on. -/
theorem run_seq (t : Bracketing Grammar) (h : ∀ g ∈ t.leaves, (g.run depth).RepliesOutcomes)
    (input : Value) :
    t.seq.run depth input = Scan.sequenceReply t <$> scan Step.inSequence (t.rules depth) input := by
  induction t generalizing input with
  | leaf g =>
    have hself : g.run depth input >>= pure =
        (Scan.sequenceReply (leaf g) <$> scan Step.inSequence [g.run depth] input) >>= pure := by
      refine bind_eq_bind_scan (h g (List.mem_singleton_self g)) fun r rest hrest => ?_
      cases r with
      | success rest v => exact .inl ⟨rest, v, rfl, rfl⟩
      | failure rest e => exact .inr ⟨rest, e, rfl, rfl⟩
      | _ => cases hrest
    exact (bind_pure _).symm.trans (hself.trans (bind_pure _))
  | node left right ihleft ihright =>
    have hleft := ihleft fun g hg => h g (List.mem_append_left _ hg)
    have hright := ihright fun g hg => h g (List.mem_append_right _ hg)
    rw [seq, Grammar.run_join, rules_node, scan_append, map_bind]
    show Rule.seq (left.seq.run depth) (right.seq.run depth) input = _
    rw [Rule.seq, hleft, bind_map_left]
    refine bind_congr_of_returns fun s hs => ?_
    have hfits := fits_of_returns_scan _ hs
    rw [length_rules] at hfits
    cases s with
    | decided i rest e =>
      have hmark : (node left right).mark i e = .branch .left (left.mark i e) :=
        mark_node_left hfits e
      simp [Scan.sequenceReply, scanAfter, hmark, reject]
    | through vs next =>
      simp only [Scan.sequenceReply, scanAfter, Value.isTrue_success, if_true, Value.rest_success,
        Value.output_success, pure_bind, hright, bind_map_left, Functor.map_map]
      rw [map_eq_pure_bind]
      refine congrArg _ (funext fun s => ?_)
      have hcount : vs.length = left.leaves.length := hfits
      cases s with
      | through ws last =>
        simp [Scan.after, nest_node hcount, accept]
      | decided i rest e =>
        simp [Scan.after, hcount, mark_node_right, reject]

/-- Goes on from a failure in the same way wherever it has been decided. -/
def IgnoresPlace {β : Type} (f : Value → Run β) : Prop :=
  ∀ rest rest' e, f (.failure rest e) = f (.failure rest' e)

theorem run_alt_node {left right : Bracketing Grammar} {input : Value}
    (hleft : ∀ f : Value → Run Value, IgnoresPlace f → left.alt.run depth input >>= f =
      (Scan.alternativesReply left input <$>
        scan Step.amongAlternatives (left.rules depth) input) >>= f)
    (hright : ∀ f : Value → Run Value, IgnoresPlace f → right.alt.run depth input >>= f =
      (Scan.alternativesReply right input <$>
        scan Step.amongAlternatives (right.rules depth) input) >>= f) :
    (node left right).alt.run depth input = Scan.alternativesReply (node left right) input <$>
      scan Step.amongAlternatives ((node left right).rules depth) input := by
  rw [alt, Grammar.run_join, rules_node, scan_append, map_bind]
  show Rule.alt (left.alt.run depth) (right.alt.run depth) input = _
  rw [Rule.alt, hleft _ fun _ _ _ => rfl, bind_map_left]
  refine bind_congr_of_returns fun s hs => ?_
  have hfits := fits_of_returns_scan _ hs
  rw [length_rules] at hfits
  cases s with
  | decided i rest v =>
    have hmark : (node left right).mark i v = .branch .left (left.mark i v) :=
      mark_node_left hfits v
    simp [Scan.alternativesReply, scanAfter, hmark, accept]
  | through es next =>
    obtain rfl := next_of_returns_alternatives _ hs
    simp only [Scan.alternativesReply, scanAfter, Value.isTrue_failure, Bool.false_eq_true,
      if_false, Functor.map_map]
    rw [hright _ fun _ _ _ => rfl, bind_map_left, map_eq_pure_bind]
    refine congrArg _ (funext fun s => ?_)
    have hcount : es.length = left.leaves.length := hfits
    cases s with
    | through ds last =>
      simp [Scan.alternativesReply, Scan.after, nest_node hcount, reject]
    | decided i rest v =>
      simp [Scan.alternativesReply, Scan.after, hcount, mark_node_right, accept]

/-- A single parser may fail somewhere else than at the input. Whatever ignores
that takes the same from it as from a row of one. -/
theorem bind_run_alt (t : Bracketing Grammar) (h : ∀ g ∈ t.leaves, (g.run depth).RepliesOutcomes)
    (input : Value) (f : Value → Run Value) (hf : IgnoresPlace f) :
    t.alt.run depth input >>= f = (Scan.alternativesReply t input <$>
      scan Step.amongAlternatives (t.rules depth) input) >>= f := by
  induction t generalizing f with
  | leaf g =>
    refine bind_eq_bind_scan (h g (List.mem_singleton_self g)) fun r rest hrest => ?_
    cases r with
    | success rest v => exact .inr ⟨rest, v, rfl, rfl⟩
    | failure rest e => exact .inl ⟨input, e, rfl, hf input rest e⟩
    | _ => cases hrest
  | node left right ihleft ihright =>
    have hleft := ihleft fun g hg => h g (List.mem_append_left _ hg)
    have hright := ihright fun g hg => h g (List.mem_append_right _ hg)
    rw [run_alt_node hleft hright]

theorem run_alt {t : Bracketing Grammar} (hnode : t.IsNode)
    (h : ∀ g ∈ t.leaves, (g.run depth).RepliesOutcomes) (input : Value) :
    t.alt.run depth input =
      Scan.alternativesReply t input <$> scan Step.amongAlternatives (t.rules depth) input := by
  cases t with
  | leaf g => exact hnode.elim
  | node left right =>
    exact run_alt_node (bind_run_alt left (fun g hg => h g (List.mem_append_left _ hg)) input)
      (bind_run_alt right (fun g hg => h g (List.mem_append_right _ hg)) input)

theorem run_foldAll_seq (t : Bracketing Grammar)
    (h : ∀ g ∈ t.leaves, (g.run depth).RepliesOutcomes) (input : Value) :
    (Grammar.wrap .foldAll t.seq).run depth input =
      Scan.foldedReply t <$> scan Step.inSequence (t.rules depth) input := by
  rw [Grammar.run_wrap, map_eq_pure_bind]
  show Rule.mapError _ (t.seq.run depth) input = _
  rw [Rule.mapError, run_seq t h, bind_map_left]
  refine congrArg _ (funext fun s => ?_)
  cases s with
  | through vs next => rfl
  | decided i rest e =>
    simp [Scan.sequenceReply, Scan.foldedReply, foldAll_mark, reject]

/-- The leaves of a tree of sequences are run from left to right, each on what
the one before it leaves, until one fails; those of a tree of alternatives on
the input, until one matches. The tree groups the contents of the reply, and
does nothing else: trees with the same leaves leave the same events. -/
theorem run_eq_scan (t : Bracketing Grammar)
    (h : ∀ g ∈ t.leaves, (g.run depth).RepliesOutcomes) (input : Value) :
    (t.seq.run depth input =
        Scan.sequenceReply t <$> scan Step.inSequence (t.rules depth) input ∧
      (Grammar.wrap .foldAll t.seq).run depth input =
        Scan.foldedReply t <$> scan Step.inSequence (t.rules depth) input ∧
      ∀ e, (∀ side w, e ≠ Value.branch side w) → e.foldAll = e) ∧
    (t.IsNode → t.alt.run depth input =
      Scan.alternativesReply t input <$> scan Step.amongAlternatives (t.rules depth) input) ∧
    ∀ u : Bracketing Grammar, u.leaves = t.leaves →
      (u.seq.run depth input =
          Scan.sequenceReply u <$> scan Step.inSequence (t.rules depth) input ∧
        ∀ made, (u.seq.run depth input made).events = (t.seq.run depth input made).events) ∧
      (u.IsNode → t.IsNode → u.alt.run depth input =
          Scan.alternativesReply u input <$> scan Step.amongAlternatives (t.rules depth) input ∧
        ∀ made, (u.alt.run depth input made).events = (t.alt.run depth input made).events) := by
  refine ⟨⟨run_seq t h input, run_foldAll_seq t h input, fun e he => Value.foldAll_of_unmarked he⟩,
    fun hnode => run_alt hnode h input, fun u hleaves => ?_⟩
  have hrules : u.rules depth = t.rules depth := by rw [rules, hleaves, rules]
  have hu : ∀ g ∈ u.leaves, (g.run depth).RepliesOutcomes := fun g hg => h g (hleaves ▸ hg)
  have hseq := run_seq u hu input
  rw [hrules] at hseq
  refine ⟨⟨hseq, fun made => ?_⟩, fun hunode hnode => ?_⟩
  · rw [hseq, run_seq t h, map_apply, map_apply]
  · have halt := run_alt hunode hu input
    rw [hrules] at halt
    refine ⟨halt, fun made => ?_⟩
    rw [halt, run_alt hnode h, map_apply, map_apply]

/-- Three letters, the last two of them together. -/
def threeLetters : Bracketing Grammar :=
  node (leaf (letter "a")) (node (leaf (letter "b")) (leaf (letter "c")))
where
  letter (c : Text) : Grammar := .leaf (.literal (.text c) (.text ("no " ++ c)))

theorem letter_repliesOutcomes (c : Text) (depth : Nat) :
    ((threeLetters.letter c).run depth).RepliesOutcomes := by
  have hborrows : ∀ p, ¬ (threeLetters.letter c).Borrows .all p := nofun
  exact Grammar.repliesOutcomes_run fun p hp => absurd hp (hborrows p)

theorem threeLetters_repliesOutcomes (depth : Nat) :
    ∀ g ∈ threeLetters.leaves, (g.run depth).RepliesOutcomes := by
  intro g hg
  change g ∈ [("a" : Text), "b", "c"].map threeLetters.letter at hg
  obtain ⟨c, -, rfl⟩ := List.mem_map.mp hg
  exact letter_repliesOutcomes c depth

/-- A sequence without its third letter, and the second of three alternatives. -/
theorem run_eq_scan_threeLetters :
    (∀ g ∈ threeLetters.leaves, (g.run 0).RepliesOutcomes) ∧
      threeLetters.seq.run 0 (.text "abd") =
        pure (.failure (.text "d") (.branch .right (.branch .right (.text "no c")))) ∧
      threeLetters.alt.run 0 (.text "bd") =
        pure (.success (.text "d") (.branch .right (.branch .left (.text "b")))) := by
  have hleaves := threeLetters_repliesOutcomes 0
  refine ⟨hleaves, ?_, ?_⟩
  · rw [(run_eq_scan threeLetters hleaves (.text "abd")).1.1]
    rfl
  · rw [(run_eq_scan threeLetters hleaves (.text "bd")).2.1 trivial]
    rfl

end Bracketing

end ParserCombinators
