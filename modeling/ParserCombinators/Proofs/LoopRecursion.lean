import ParserCombinators.Proofs.Counted
import ParserCombinators.Proofs.Handles.Unfolding

/-!
A repetition as a loop and as a recursion. The loop collects the outputs of a parser
until it fails, and the recursion nests them in pairs. If the parser never breaks off
and every match consumes something, both call it in the same row: on the input, on
what each match leaves, and on what the last one leaves, where it fails. The loop
takes the rest of the attempt that failed, so it has to backtrack before, and the
recursion goes back by itself.
-/

namespace ParserCombinators

open Run

/-- Outputs in pairs, each with what comes after it, and the empty branch at the end. -/
def Value.nested : List Value → Value
  | [] => .branch .right .none
  | v :: vs => .branch .left (.tuple [v, nested vs])

theorem Value.nested_inj {vs ws : List Value} : nested vs = nested ws ↔ vs = ws := by
  refine ⟨fun h => ?_, congrArg nested⟩
  induction vs generalizing ws with
  | nil =>
    cases ws with
    | nil => rfl
    | cons w ws => cases h
  | cons v vs ih =>
    cases ws with
    | nil => cases h
    | cons w ws =>
      simp only [nested, branch.injEq, tuple.injEq, List.cons.injEq] at h
      rw [h.2.1, ih h.2.2.1]

namespace Rule

variable {p q : Rule} {input middle rest v w e : Value} {made made' made'' : Nat}
  {events events' : List Event}

theorem backtrack_apply_of_success
    (h : p input made = ⟨events, made', .ok (.success rest v)⟩) :
    p.backtrack input made = ⟨events, made', .ok (.success rest v)⟩ := by
  rw [backtrack, bind_apply_ok h]
  simp [pure_apply]

theorem backtrack_apply_of_failure
    (h : p input made = ⟨events, made', .ok (.failure rest e)⟩) :
    p.backtrack input made = ⟨events, made', .ok (.failure input e)⟩ := by
  rw [backtrack, bind_apply_ok h]
  simp [reject, pure_apply]

theorem seq_apply_of_success
    (hp : p input made = ⟨events, made', .ok (.success middle v)⟩)
    (hq : q middle made' = ⟨events', made'', .ok (.success rest w)⟩) :
    p.seq q input made =
      ⟨events ++ events', made'', .ok (.success rest (.tuple [v, w]))⟩ := by
  rw [seq, bind_apply_ok hp]
  simp [bind_apply_ok hq, accept, pure_apply]

theorem seq_apply_of_left (hp : p input made = ⟨events, made', .ok (.failure rest e)⟩) :
    p.seq q input made = ⟨events, made', .ok (.failure rest (.branch .left e))⟩ := by
  rw [seq, bind_apply_ok hp]
  simp [reject, pure_apply]

/-- One level of the recursion: a match and what `q` makes of its rest, or nothing. -/
def pairOrNone (p q : Rule) : Rule := (p.seq q).alt (always .none)

theorem pairOrNone_apply_of_success
    (hp : p input made = ⟨events, made', .ok (.success middle v)⟩)
    (hq : q middle made' = ⟨events', made'', .ok (.success rest w)⟩) :
    p.pairOrNone q input made =
      ⟨events ++ events', made'', .ok (.success rest (.branch .left (.tuple [v, w])))⟩ := by
  rw [pairOrNone, alt, bind_apply_ok (seq_apply_of_success hp hq)]
  simp [accept, pure_apply]

theorem pairOrNone_apply_of_failure
    (hp : p input made = ⟨events, made', .ok (.failure rest e)⟩) :
    p.pairOrNone q input made =
      ⟨events, made', .ok (.success input (.branch .right .none))⟩ := by
  rw [pairOrNone, alt, bind_apply_ok (seq_apply_of_left hp)]
  simp [always, accept, pure_apply]

end Rule

namespace Grammar

/-- On every sequence the parser ends with an outcome, and a match leaves a shorter one. -/
def Shortens (g : Grammar) : Prop := ∀ input made, input.isSequence = true →
  ∃ events made',
    (∃ rest e, g.Ends input made ⟨events, made', .ok (.failure rest e)⟩) ∨
    ∃ next v, g.Ends input made ⟨events, made', .ok (.success next v)⟩ ∧
      next.isSequence = true ∧ next.size < input.size

/-- As many matches as there are, each attempt moved back if it fails. -/
def loop (g : Grammar) : Grammar := wrap .many (wrap .backtrack g)

/-- A match with what the recursion makes of its rest, or nothing. -/
def recursion (x : Text) (g : Grammar) : Grammar :=
  recursive x (join .alt (join .seq g (ref x)) (leaf (.always .none)))

/-- A call of a parser: what it is called on, and what is seen of it from outside. -/
structure Call where
  input : Value
  events : List Event

/-- What is seen of a call from outside if the parser also tells that it is called. -/
def Call.told (id : Text) (c : Call) : List Event := .call id c.input :: c.events

/-- Calls of a parser in a row, through the outputs of all that match to what the last
of these leaves. The row ends with the first call that fails. -/
inductive Row (g : Grammar) : Value → Nat → List Call → List Value → Value → Nat → Prop
  | stop {input rest e : Value} {made made' : Nat} {events : List Event}
    (he : g.Ends input made ⟨events, made', .ok (.failure rest e)⟩) :
    Row g input made [⟨input, events⟩] [] input made'
  | next {input middle last v : Value} {made made' made'' : Nat} {events : List Event}
    {calls : List Call} {vs : List Value}
    (hv : g.Ends input made ⟨events, made', .ok (.success middle v)⟩)
    (hkinds : middle.comparable input = pure ()) (hshorter : middle.size < input.size)
    (hrest : Row g middle made' calls vs last made'') :
    Row g input made (⟨input, events⟩ :: calls) (v :: vs) last made''

variable {g : Grammar} {x : Text} {input last : Value} {made made' : Nat} {calls : List Call}
  {vs : List Value}

/-- What consumes something with every match fails in the end. -/
theorem Shortens.exists_row (hg : g.Shortens) (n : Nat) : ∀ (input : Value) (made : Nat),
    input.isSequence = true → input.size = n →
    ∃ calls vs last made', Row g input made calls vs last made' := by
  induction n using Nat.strongRecOn with
  | ind n ih =>
    intro input made hinput hn
    obtain ⟨events, middle, ⟨rest, e, he⟩ | ⟨next, v, hv, hnext, hshorter⟩⟩ :=
      hg input made hinput
    · exact ⟨_, _, _, _, .stop he⟩
    · obtain ⟨calls, vs, last, made', hrest⟩ := ih next.size (hn ▸ hshorter) next middle hnext rfl
      have hkinds := Rule.comparable_of_isSequence hnext hinput
      exact ⟨_, _, _, _, .next hv hkinds hshorter hrest⟩

theorem Ends.counted {t : Trace Value} (h : g.Ends input made t) (id : Text) :
    (wrap (.counted id) g).Ends input made (t.after [.call id input]) := by
  obtain ⟨hdeep, depth, hrun⟩ := h
  refine ⟨hdeep, depth, fun d hd => ?_⟩
  rw [run_wrap, ← hrun d hd]
  rfl

/-- A parser that tells of its calls makes the same calls. -/
theorem Row.counted (h : Row g input made calls vs last made') (id : Text) :
    Row (wrap (.counted id) g) input made (calls.map fun c => ⟨c.input, c.told id⟩) vs last
      made' := by
  induction h with
  | stop he => exact .stop (he.counted id)
  | next hv hkinds hshorter _ ih => exact .next (hv.counted id) hkinds hshorter ih

/-- The loop makes the calls of the row, and takes up its outputs as it goes. -/
theorem Row.manyFrom (h : Row g input made calls vs last made') : ∃ depth, ∀ d, depth ≤ d →
    ∀ (onStall : Nat → Run Unit) (outputs : List Value),
      Rule.manyFrom onStall (g.run d).backtrack outputs input made =
        ⟨calls.flatMap Call.events, made', .ok (.success last (.list (outputs ++ vs)))⟩ := by
  induction h with
  | stop he =>
    obtain ⟨-, depth, hrun⟩ := he
    refine ⟨depth, fun d hd onStall outputs => ?_⟩
    rw [Rule.manyFrom_apply_of_failure (Rule.backtrack_apply_of_failure (hrun d hd))]
    simp
  | next hv hkinds hshorter _ ih =>
    obtain ⟨-, depth, hrun⟩ := hv
    obtain ⟨depth', hrest⟩ := ih
    -- One depth is enough for all calls of the row.
    refine ⟨max depth depth', fun d hd onStall outputs => ?_⟩
    have hmatch := Rule.backtrack_apply_of_success (hrun d (by omega))
    rw [Rule.manyFrom_apply_of_consumes hmatch hkinds hshorter, hrest d (by omega)]
    simp [Trace.after]

theorem Row.loop (h : Row g input made calls vs last made') :
    g.loop.Ends input made
      ⟨calls.flatMap Call.events, made', .ok (.success last (.list vs))⟩ := by
  obtain ⟨depth, hrun⟩ := h.manyFrom
  refine ⟨nofun, depth, fun d hd => ?_⟩
  rw [Grammar.loop, run_wrap, run_wrap]
  exact hrun d hd _ []

/-- One more call of the recursion is one more level. -/
theorem run_recursion_succ (hg : ∀ s, subst x s g = g) (d : Nat) :
    (recursion x g).run (d + 1) = (g.run d).pairOrNone ((recursion x g).run d) := by
  have hunfold : unfold x (join .alt (join .seq g (ref x)) (leaf (.always .none))) =
      join .alt (join .seq g (handle x (join .alt (join .seq g (ref x)) (leaf (.always .none)))))
        (leaf (.always .none)) := by
    simp [unfold, subst, hg, Joint.subst, Leaf.subst, Value.subst]
  rw [recursion, run_recursive d]
  show (unfold x _).run d = _
  rw [hunfold, run_join, run_join, run_leaf]
  rfl

/-- The recursion makes the calls of the row one level after the other, and puts the
outputs together on its way back. -/
theorem Row.recursion (h : Row g input made calls vs last made')
    (hg : ∀ s, subst x s g = g) :
    (recursion x g).Ends input made
      ⟨calls.flatMap Call.events, made', .ok (.success last (.nested vs))⟩ := by
  induction h with
  | stop he =>
    obtain ⟨-, depth, hrun⟩ := he
    refine Ends.of_run (d := depth + 1) ?_ nofun
    rw [run_recursion_succ hg,
      Rule.pairOrNone_apply_of_failure (hrun depth (Nat.le_refl depth))]
    simp [Value.nested]
  | next hv _ _ _ ih =>
    obtain ⟨-, depth, hrun⟩ := hv
    obtain ⟨-, depth', hrest⟩ := ih
    -- Every call of the row lies one level deeper than the one before it.
    refine Ends.of_run (d := max depth depth' + 1) ?_ nofun
    rw [run_recursion_succ hg, Rule.pairOrNone_apply_of_success (hrun _ (by omega))
      (hrest _ (by omega))]
    simp [Value.nested]

/-- For a parser that consumes something with every match, the loop and the recursion
end alike. Both match, leave the same and output the same, in a list or in pairs, and
both call the parser on the same inputs, one after the other. -/
theorem loop_agrees_recursion (hg : g.Shortens) (hx : ∀ s, subst x s g = g)
    (hinput : input.isSequence = true) (made : Nat) :
    (∀ rest vs, (∃ events made', g.loop.Ends input made
        ⟨events, made', .ok (.success rest (.list vs))⟩) ↔
      ∃ events made', (recursion x g).Ends input made
        ⟨events, made', .ok (.success rest (.nested vs))⟩) ∧
    ∃ (calls : List Call) (made' : Nat) (rest : Value) (vs : List Value),
      g.loop.Ends input made
        ⟨calls.flatMap Call.events, made', .ok (.success rest (.list vs))⟩ ∧
      (recursion x g).Ends input made
        ⟨calls.flatMap Call.events, made', .ok (.success rest (.nested vs))⟩ ∧
      ∀ id,
        (wrap (.counted id) g).loop.Ends input made
          ⟨calls.flatMap (Call.told id), made', .ok (.success rest (.list vs))⟩ ∧
        (recursion x (wrap (.counted id) g)).Ends input made
          ⟨calls.flatMap (Call.told id), made', .ok (.success rest (.nested vs))⟩ := by
  obtain ⟨calls, vs, last, made', hrow⟩ := hg.exists_row input.size input made hinput rfl
  have hloop := hrow.loop
  have hrecursion := hrow.recursion hx
  refine ⟨fun rest ws => ⟨?_, ?_⟩, calls, made', last, vs, hloop, hrecursion, fun id => ?_⟩
  · rintro ⟨events, made'', hends⟩
    have hsame := Except.ok.inj (congrArg Trace.result (hends.unique hloop))
    obtain ⟨rfl, hlist⟩ := Value.success.inj hsame
    obtain rfl := Value.list.inj hlist
    exact ⟨_, _, hrecursion⟩
  · rintro ⟨events, made'', hends⟩
    have hsame := Except.ok.inj (congrArg Trace.result (hends.unique hrecursion))
    obtain ⟨rfl, hnested⟩ := Value.success.inj hsame
    obtain rfl := Value.nested_inj.mp hnested
    exact ⟨_, _, hloop⟩
  · have hcounted := hrow.counted id
    have hx' : ∀ s, subst x s (wrap (.counted id) g) = wrap (.counted id) g := by
      intro s
      rw [subst, hx]
      rfl
    have htold : (calls.map fun c => (⟨c.input, c.told id⟩ : Call)).flatMap Call.events =
        calls.flatMap (Call.told id) := List.flatMap_map ..
    exact ⟨htold ▸ hcounted.loop, htold ▸ hcounted.recursion hx'⟩

theorem shortens_take (n : Nat) (error : Value) :
    (leaf (.take ((n + 1 : Nat) : Int) error)).Shortens := by
  intro input made hinput
  have hlength := Value.length_of_isSequence hinput
  by_cases hsize : n + 1 ≤ input.size
  · refine ⟨[], made, .inr ⟨input.dropFirst (n + 1), input.takeFirst (n + 1),
      Ends.of_run (d := 0) ?_ nofun, ?_, ?_⟩⟩
    · show Rule.take _ error input made = _
      rw [Rule.take, hlength, pure_bind, if_pos (Int.ofNat_le.mpr hsize), Value.cutAt, hlength,
        pure_bind, Value.fromStart_natCast]
      rfl
    · rw [Value.isSequence_dropFirst, hinput]
    · rw [Value.size_dropFirst]
      omega
  · refine ⟨[], made, .inl ⟨input, error, Ends.of_run (d := 0) ?_ nofun⟩⟩
    show Rule.take _ error input made = _
    rw [Rule.take, hlength, pure_bind, if_neg (fun h => hsize (Int.ofNat_le.mp h))]
    rfl

theorem loop_agrees_recursion_pairs :
    (leaf (.take 2 .none)).Shortens ∧
      (∀ s, subst "self" s (leaf (.take 2 .none)) = leaf (.take 2 .none)) ∧
      (Value.text "abcde").isSequence = true ∧
      ∃ events made', (recursion "self" (leaf (.take 2 .none))).Ends (.text "abcde") 0
        ⟨events, made', .ok (.success (.text "e") (.branch .left (.tuple [.text "ab",
          .branch .left (.tuple [.text "cd", .branch .right .none])])))⟩ := by
  have hshortens : (leaf (.take 2 .none)).Shortens := shortens_take 1 .none
  have hself : ∀ s, subst "self" s (leaf (.take 2 .none)) = leaf (.take 2 .none) := fun _ => rfl
  have hinput : (Value.text "abcde").isSequence = true := rfl
  have hfirst : (leaf (.take 2 .none)).Ends (.text "abcde") 0
      ⟨[], 0, .ok (.success (.text "cde") (.text "ab"))⟩ := Ends.of_run (d := 0) rfl nofun
  have hsecond : (leaf (.take 2 .none)).Ends (.text "cde") 0
      ⟨[], 0, .ok (.success (.text "e") (.text "cd"))⟩ := Ends.of_run (d := 0) rfl nofun
  have hthird : (leaf (.take 2 .none)).Ends (.text "e") 0
      ⟨[], 0, .ok (.failure (.text "e") .none)⟩ := Ends.of_run (d := 0) rfl nofun
  have hrow := Row.next hfirst rfl (by decide) (.next hsecond rfl (by decide) (.stop hthird))
  exact ⟨hshortens, hself, hinput,
    ((loop_agrees_recursion hshortens hself hinput 0).1 _ _).mp ⟨_, _, hrow.loop⟩⟩

end Grammar

end ParserCombinators
