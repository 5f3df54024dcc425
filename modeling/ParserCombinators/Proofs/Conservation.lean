import ParserCombinators.Proofs.Grammar.Part
import ParserCombinators.Proofs.Rule.Success
import ParserCombinators.Proofs.Rule.Text

/-!
No input is lost or duplicated. A grammar that only matches, chooses, repeats
and goes back outputs what it consumes: the texts of its output, laid end to
end, and what it leaves are the text it was given. A repetition goes on from
where the last attempt failed, so its body must fail where it began.
-/

namespace ParserCombinators

open Run

namespace Value

mutual

/-- The texts of a value laid end to end, markers taken off and `none` standing
for no text. Other values are not made of texts. -/
def flatten? : Value → Option Text
  | none => some []
  | text t => some t
  | list items => flattenAll? items
  | tuple items => flattenAll? items
  | branch _ v => flatten? v
  | _ => Option.none

def flattenAll? : List Value → Option Text
  | [] => some []
  | v :: vs => do
    let t ← flatten? v
    let u ← flattenAll? vs
    pure (t ++ u)

end

theorem flattenAll?_cons {v : Value} {vs : List Value} {t u : Text} (ht : v.flatten? = some t)
    (hu : flattenAll? vs = some u) : flattenAll? (v :: vs) = some (t ++ u) := by
  rw [flattenAll?, ht, hu]
  rfl

end Value

/-- An output and a rest that make up a text. -/
def Conserved (s : Text) (rest v : Value) : Prop :=
  ∃ t u, v.flatten? = some t ∧ rest = .text u ∧ t ++ u = s

namespace Conserved

variable {s t u : Text} {middle rest v w : Value}

theorem nothing (s : Text) : Conserved s (.text s) .none := ⟨[], s, rfl, rfl, rfl⟩

theorem pair (hv : Conserved s middle v)
    (hw : ∀ m, middle = .text m → Conserved m rest w) : Conserved s rest (.tuple [v, w]) := by
  obtain ⟨t, m, ht, rfl, rfl⟩ := hv
  obtain ⟨t', u, ht', rfl, rfl⟩ := hw m rfl
  have hpair : (Value.tuple [v, w]).flatten? = some (t ++ (t' ++ [])) :=
    Value.flattenAll?_cons ht (Value.flattenAll?_cons ht' rfl)
  exact ⟨t ++ t', u, by rw [hpair, List.append_nil], rfl, by rw [List.append_assoc]⟩

theorem cons {vs : List Value} (hv : Conserved s middle v)
    (hvs : ∀ m, middle = .text m → Conserved m rest (.list vs)) :
    Conserved s rest (.list (v :: vs)) := by
  obtain ⟨t, m, ht, rfl, rfl⟩ := hv
  obtain ⟨t', u, ht', rfl, rfl⟩ := hvs m rfl
  exact ⟨t ++ t', u, Value.flattenAll?_cons ht ht', rfl, by rw [List.append_assoc]⟩

end Conserved

namespace Rule

/-- Whatever the rule outputs on a text is what it consumes. -/
def Conserves (p : Rule) : Prop :=
  ∀ s rest v, (p (.text s)).Returns (.success rest v) → Conserved s rest v

/-- Every failure on a text leaves that text. -/
def FailsInPlace (p : Rule) : Prop :=
  ∀ s rest e, (p (.text s)).Returns (.failure rest e) → rest = .text s

variable {p q : Rule}

theorem conserves_literal (pattern error : Value) : (literal pattern error).Conserves := by
  intro s rest v h
  obtain ⟨n, rfl, rfl, -⟩ := returns_literal h
  exact ⟨s.take n, s.drop n, rfl, rfl, List.take_append_drop n s⟩

theorem conserves_element (test : Value → Run Bool) (error : Value) :
    (element test error).Conserves := by
  intro s rest v h
  obtain ⟨rfl, hhead⟩ := returns_element h
  cases s with
  | nil => cases hhead
  | cons c s =>
    obtain rfl := Option.some.inj hhead
    exact ⟨[c], s, rfl, rfl, rfl⟩

theorem conserves_endOfInput (error : Value) : (endOfInput error).Conserves := by
  intro s rest v h
  obtain ⟨rfl, rfl⟩ := returns_endOfInput h
  exact .nothing s

theorem conserves_never (error : Value) : (never error).Conserves := by
  intro s rest v h
  cases returns_reject.mp h

theorem Conserves.seq (hp : p.Conserves) (hq : q.Conserves) : (p.seq q).Conserves := by
  intro s rest v h
  obtain ⟨middle, u, w, hu, hw, rfl⟩ := returns_seq h
  refine (hp s middle u hu).pair fun m hm => ?_
  subst hm
  exact hq m rest w hw

theorem Conserves.alt (hp : p.Conserves) (hq : q.Conserves) : (p.alt q).Conserves := by
  intro s rest v h
  obtain ⟨u, hu, rfl⟩ | ⟨w, hw, rfl⟩ := returns_alt h
  · exact hp s rest u hu
  · exact hq s rest w hw

theorem Conserves.maybe (hp : p.Conserves) : p.maybe.Conserves := by
  intro s rest v h
  obtain h | ⟨rfl, rfl⟩ := returns_maybe h
  · exact hp s rest v h
  · exact .nothing s

theorem conserves_not (error : Value) (p : Rule) : (p.not error).Conserves := by
  intro s rest v h
  obtain ⟨rfl, rfl⟩ := returns_not h
  exact .nothing s

theorem Conserves.backtrack (hp : p.Conserves) : p.backtrack.Conserves :=
  fun s rest v h => hp s rest v (returns_backtrack h)

theorem Conserves.validate {test : Value → Run Value} {error : Value} (hp : p.Conserves) :
    (p.validate test error).Conserves :=
  fun s rest v h => hp s rest v (returns_validate h)

theorem Conserves.recoverWith {recovery : Value → Run Rule} (hp : p.Conserves)
    (hq : ∀ s r e q, (p (.text s)).Returns r → r.error.Returns e → (recovery e).Returns q →
      q.Conserves) :
    (p.recoverWith recovery).Conserves := by
  intro s rest v h
  obtain h | ⟨r, e, q, hr, he, hchosen, h⟩ := returns_recoverWith h
  · exact hp s rest v h
  · exact hq s r e q hr he hchosen s rest v h

/-- Matches in a row output together what they consume together. -/
theorem Conserves.matches (hp : p.Conserves) {input rest : Value} {vs : List Value}
    (h : Matches p input vs rest) : ∀ s, input = .text s → Conserved s rest (.list vs) := by
  induction h with
  | nil input =>
    intro s hs
    subst hs
    exact ⟨[], s, rfl, rfl, rfl⟩
  | @cons input middle rest v vs hv _ ih =>
    intro s hs
    subst hs
    exact (hp s middle v hv).cons ih

/-- A repetition whose body fails where it began stops after its last match. -/
theorem Conserves.repetition (hp : p.Conserves) (hplace : p.FailsInPlace) {s : Text}
    {last rest : Value} {vs : List Value} (hvs : Matches p (.text s) vs last)
    (hstop : p.Stops last rest) : Conserved s rest (.list vs) := by
  have hlast := hp.matches hvs s rfl
  obtain rfl | ⟨e, he⟩ := hstop
  · exact hlast
  · obtain ⟨t, u, ht, rfl, heq⟩ := hlast
    exact ⟨t, u, ht, hplace u rest e he, heq⟩

theorem Conserves.many {onStall : Nat → Run Unit} (hp : p.Conserves) (hplace : p.FailsInPlace) :
    (p.many onStall).Conserves := by
  intro s rest v h
  obtain ⟨vs, last, hvs, rfl, hstop⟩ := returns_many h
  exact hp.repetition hplace hvs hstop

theorem Conserves.atLeast {count : Nat} {error : Value} (hp : p.Conserves)
    (hplace : p.FailsInPlace) : (p.atLeast count error).Conserves := by
  intro s rest v h
  obtain ⟨vs, last, hvs, rfl, hstop⟩ := returns_atLeast h
  exact hp.repetition hplace hvs hstop

theorem Conserves.atMost {count : Nat} (hp : p.Conserves) (hplace : p.FailsInPlace) :
    (p.atMost count).Conserves := by
  intro s rest v h
  obtain ⟨vs, last, hvs, rfl, hstop⟩ := returns_atMost h
  exact hp.repetition hplace hvs hstop

theorem Conserves.exactly {count : Nat} {error : Value} (hp : p.Conserves) :
    (p.exactly count error).Conserves := by
  intro s rest v h
  obtain ⟨vs, hvs, rfl⟩ := returns_exactly h
  exact hp.matches hvs s rfl

/-- Whatever fails, it fails where it began once it goes back. -/
theorem failsInPlace_backtrack (p : Rule) : p.backtrack.FailsInPlace := by
  intro s rest e h
  obtain ⟨r, hr, ⟨htrue, h⟩ | ⟨-, h⟩⟩ := h.of_reply
  · rw [← returns_pure.mp h] at htrue
    cases htrue
  · obtain ⟨d, -, h⟩ := h.of_bind
    exact (Value.failure.inj (returns_reject.mp h)).1

end Rule

/-- Leaves that output what they consume. Of the values in the place of a
parser, a function may do what it likes. -/
def Leaf.isConservative : Leaf → Bool
  | .literal _ _ => true
  | .element _ _ => true
  | .anything _ => true
  | .endOfInput _ => true
  | .never _ => true
  | .space => true
  | .tab => true
  | .newline => true
  | .carriageReturn => true
  | .whitespace => true
  | .value (.function _ _) => false
  | .value _ => true
  | _ => false

namespace Wrapper

def isConservative : Wrapper → Bool
  | maybe => true
  | many => true
  | atLeast _ _ => true
  | atMost _ => true
  | exactly _ _ => true
  | not _ => true
  | backtrack => true
  | recoverWith _ => true
  | validate _ _ => true
  | named _ => true
  | toParser => true
  | parser _ => true
  | _ => false

/-- Whether a wrapper goes on from where an attempt has failed. -/
def resumes : Wrapper → Bool
  | many => true
  | atLeast _ _ => true
  | atMost _ => true
  | _ => false

end Wrapper

namespace Grammar

/-- Every failure on a text leaves that text, at whatever depth. -/
def FailsInPlace (g : Grammar) : Prop := ∀ depth, (g.run depth).FailsInPlace

/-- Nodes that output what they consume if their parts do. -/
def IsConservative : Grammar → Prop
  | leaf l => l.isConservative = true
  | wrap w g => w.isConservative = true ∧ (w.resumes = true → g.FailsInPlace)
  | join j _ _ => j = .seq ∨ j = .alt
  | surroundedBy _ _ _ => False
  | ref _ => True
  | recursive _ _ => True
  | recursiveEager _ _ _ => True
  | handle _ _ => True

variable {depth : Nat}

theorem conserves_leaf {l : Leaf} (hl : l.isConservative = true)
    (hparser : ∀ identity k, l = .value (.parser identity k) → (callAt depth k).Conserves) :
    (l.rule (callAt depth)).Conserves := by
  cases l with
  | literal pattern error => exact Rule.conserves_literal pattern error
  | element item error => exact Rule.conserves_element _ error
  | anything error => exact Rule.conserves_element _ error
  | endOfInput error => exact Rule.conserves_endOfInput error
  | never error => exact Rule.conserves_never error
  | space => exact Rule.conserves_element _ _
  | tab => exact Rule.conserves_element _ _
  | newline => exact Rule.conserves_element _ _
  | carriageReturn => exact Rule.conserves_element _ _
  | whitespace => exact Rule.conserves_element _ _
  | value v =>
    cases v with
    | function identity f => cases hl
    | parser identity k => exact hparser identity k rfl
    | _ => exact fun _ _ _ h => absurd h not_returns_fail
  | _ => cases hl

/-- A recovery goes on with a part of the grammar. -/
theorem conserves_recoverWith
    (hcall : ∀ g : Grammar, g.Throughout .texts IsConservative → (callAt depth g).Conserves)
    {f : Callback} {g : Grammar} (h : (wrap (.recoverWith f) g).Throughout .texts IsConservative)
    (hg : (g.run depth).Conserves) :
    ((g.run depth).recoverWith (f.choose (callAt depth))).Conserves := by
  refine hg.recoverWith fun s r e q hr he hq => ?_
  obtain ⟨w, hw, hq⟩ := hq.of_bind
  have hfail : g.CanFail .texts e := ⟨depth, .text s, r, ⟨s, rfl⟩, hr, he⟩
  have hchosen := h.part (.chosen (.recoverWith hfail hw))
  cases w with
  | function identity f => cases hchosen.self
  | parser identity k =>
    rw [returns_pure.mp hq]
    exact hcall k (hchosen.part (.parser identity k))
  | _ => exact absurd hq not_returns_fail

theorem conserves_wrapper
    (hcall : ∀ g : Grammar, g.Throughout .texts IsConservative → (callAt depth g).Conserves)
    {w : Wrapper} {g : Grammar} (h : (wrap w g).Throughout .texts IsConservative)
    (hg : (g.run depth).Conserves) : (w.rule (callAt depth) g (g.run depth)).Conserves := by
  obtain ⟨hw, hplace⟩ := h.self
  cases w with
  | maybe => exact hg.maybe
  | many => exact hg.many (hplace rfl depth)
  | atLeast n error => exact hg.atLeast (hplace rfl depth)
  | atMost n => exact hg.atMost (hplace rfl depth)
  | exactly n error => exact hg.exactly
  | not error => exact Rule.conserves_not error _
  | backtrack => exact hg.backtrack
  | recoverWith f => exact conserves_recoverWith hcall h hg
  | validate predicate error => exact hg.validate
  | named name => exact hg
  | toParser => exact hg
  | parser name => exact hg
  | _ => cases hw

/-- The step: if calls output what they consume, so does the rule of a grammar. -/
theorem conserves_rule
    (hcall : ∀ g : Grammar, g.Throughout .texts IsConservative → (callAt depth g).Conserves) :
    ∀ g : Grammar, g.Throughout .texts IsConservative → (g.run depth).Conserves
  | leaf l, h => by
    rw [run_leaf]
    refine conserves_leaf h.self fun identity k heq => ?_
    subst heq
    exact hcall k (h.part (.parser identity k))
  | wrap w g, h => by
    rw [run_wrap]
    exact conserves_wrapper hcall h (conserves_rule hcall g (h.part (.inner w g)))
  | join j g k, h => by
    have hg := conserves_rule hcall g (h.part (.first j g k))
    have hk := conserves_rule hcall k (h.part (.second j g k))
    rw [run_join]
    obtain rfl | rfl := h.self
    · exact hg.seq hk
    · exact hg.alt hk
  | surroundedBy g left right, h => h.self.elim
  | ref x, _ => by
    rw [run_eq]
    exact fun _ _ _ hr => absurd hr not_returns_fail
  | recursive x body, h => by
    rw [run_eq]
    exact hcall _ (h.part (.recursive x body))
  | recursiveEager x input body, _ => by
    rw [run_eq]
    exact fun _ _ _ hr => absurd hr not_returns_fail
  | handle x body, h => by
    rw [run_eq]
    exact hcall _ (h.part (.handle x body))

theorem conserves_run (depth : Nat) :
    ∀ g : Grammar, g.Throughout .texts IsConservative → (g.run depth).Conserves := by
  induction depth with
  | zero => exact conserves_rule fun _ _ _ _ _ hr => absurd hr not_returns_fail
  | succ depth ih => exact conserves_rule ih

/-- The texts of an output and what is left are the input: nothing of it is lost
or duplicated. -/
theorem flatten_append_rest {g : Grammar} (hg : g.Throughout .texts IsConservative) {depth : Nat}
    {s : Text} {rest v : Value} (hr : (g.run depth (.text s)).Returns (.success rest v)) :
    ∃ t u, v.flatten? = some t ∧ rest = .text u ∧ t ++ u = s :=
  conserves_run depth g hg s rest v hr

/-- What follows the opening parenthesis of a group: groups, and a closing
parenthesis or the end. -/
def groupTail (group : Grammar) : Grammar :=
  join .seq (wrap .many (wrap .backtrack group))
    (wrap (.recoverWith (.parser 0 (leaf (.endOfInput .none)))) (leaf (.literal (.text ")") .none)))

/-- Groups in parentheses, of which those at the end of the text need not be closed. -/
def groups : Grammar := join .seq (leaf (.literal (.text "(") .none)) (groupTail (ref "group"))

/-- The parts of a group. -/
inductive GroupPart : Grammar → Prop
  | recursive : GroupPart (recursive "group" groups)
  | handle : GroupPart (handle "group" groups)
  | opened : GroupPart (unfold "group" groups)
  | bracket (c : Text) : GroupPart (leaf (.literal (.text c) .none))
  | tail : GroupPart (groupTail (handle "group" groups))
  | many : GroupPart (wrap .many (wrap .backtrack (handle "group" groups)))
  | backtrack : GroupPart (wrap .backtrack (handle "group" groups))
  | closing : GroupPart (wrap (.recoverWith (.parser 0 (leaf (.endOfInput .none))))
      (leaf (.literal (.text ")") .none)))
  | recovery : GroupPart (leaf (.value (.parser (.given 0) (leaf (.endOfInput .none)))))
  | stop : GroupPart (leaf (.endOfInput .none))

theorem GroupPart.uses {g k : Grammar} (hg : GroupPart g) (hk : Uses .texts g k) : GroupPart k := by
  cases hg with
  | recursive => cases hk; exact .opened
  | handle => cases hk; exact .opened
  | opened =>
    cases hk with
    | first => exact .bracket "("
    | second => exact .tail
  | bracket c => cases hk
  | tail =>
    cases hk with
    | first => exact .many
    | second => exact .closing
  | many =>
    cases hk with
    | inner => exact .backtrack
    | chosen hv => cases hv
  | backtrack =>
    cases hk with
    | inner => exact .handle
    | chosen hv => cases hv
  | closing =>
    cases hk with
    | inner => exact .bracket ")"
    | chosen hv =>
      cases hv with
      | recoverWith he hw =>
        rw [returns_pure.mp hw]
        exact .recovery
  | recovery => cases hk; exact .stop
  | stop => cases hk

theorem GroupPart.isConservative {g : Grammar} (hg : GroupPart g) : g.IsConservative := by
  cases hg with
  | many =>
    refine ⟨rfl, fun _ depth => ?_⟩
    rw [run_wrap]
    exact Rule.failsInPlace_backtrack _
  | backtrack => exact ⟨rfl, nofun⟩
  | closing => exact ⟨rfl, nofun⟩
  | opened => exact .inl rfl
  | tail => exact .inl rfl
  | _ => trivial

section GroupRuns

variable {depth : Nat} {t u : Text} {rest v w : Value}

theorem unfold_groups : unfold "group" groups =
    join .seq (leaf (.literal (.text "(") .none)) (groupTail (handle "group" groups)) :=
  rfl

theorem run_backtrack_handle (depth : Nat) (g : Grammar) :
    (wrap .backtrack (handle "group" g)).run (depth + 1) =
      ((unfold "group" g).run depth).backtrack := by
  rw [run_wrap, run_eq]
  rfl

/-- An opening parenthesis begins a group. -/
theorem run_groups_text
    (h : (groupTail (handle "group" groups)).run depth (.text t) = pure (.success rest v)) :
    (unfold "group" groups).run depth (.text ("(" ++ t)) =
      pure (.success rest (.tuple [.text "(", v])) := by
  rw [unfold_groups, run_join, run_leaf]
  show Rule.seq (Rule.literal (.text "(") .none) _ _ = _
  rw [Rule.seq, Rule.literal_text_append]
  simp [h, accept]

theorem backtrack_groups_text
    (h : (groupTail (handle "group" groups)).run depth (.text t) = pure (.success rest v)) :
    (wrap .backtrack (handle "group" groups)).run (depth + 1) (.text ("(" ++ t)) =
      pure (.success rest (.tuple [.text "(", v])) := by
  rw [run_backtrack_handle, Rule.backtrack, run_groups_text h]
  rfl

/-- Without an opening parenthesis there is no group. -/
theorem backtrack_groups_text_refuses (depth : Nat) (h : ¬ "(" <+: t) :
    (wrap .backtrack (handle "group" groups)).run (depth + 1) (.text t) =
      pure (.failure (.text t) (.branch .left .none)) := by
  rw [run_backtrack_handle, unfold_groups, run_join, run_leaf]
  show Rule.backtrack (Rule.seq (Rule.literal (.text "(") .none) _) _ = _
  rw [Rule.backtrack, Rule.seq, Rule.literal_text_refuses h]
  rfl

theorem many_groups_text_refuses (depth : Nat) (h : ¬ "(" <+: t) :
    (wrap .many (wrap .backtrack (handle "group" groups))).run (depth + 1) (.text t) =
      pure (.success (.text t) (.list [])) := by
  rw [run_wrap]
  exact Rule.manyFrom_stop (backtrack_groups_text_refuses depth h)

/-- What follows an opening parenthesis is known from its groups and how it is closed. -/
theorem run_groupTail_text {g : Grammar}
    (hmany : (wrap .many (wrap .backtrack g)).run depth (.text t) = pure (.success (.text u) w))
    (hclosing : (wrap (.recoverWith (.parser 0 (leaf (.endOfInput .none))))
      (leaf (.literal (.text ")") .none))).run depth (.text u) = pure (.success rest v)) :
    (groupTail g).run depth (.text t) = pure (.success rest (.tuple [w, v])) := by
  rw [groupTail, run_join]
  show Rule.seq _ _ _ = _
  rw [Rule.seq, hmany]
  simp [hclosing, accept]

end GroupRuns

/-- Two groups inside one that is not closed. -/
theorem flatten_append_rest_groups :
    (recursive "group" groups).Throughout .texts IsConservative ∧
      ((recursive "group" groups).run 4 (.text "(()(")).Returns
        (.success (.text []) (.tuple [.text "(", .tuple [.list
          [.tuple [.text "(", .tuple [.list [], .text ")"]],
            .tuple [.text "(", .tuple [.list [], .none]]], .none]])) ∧
      ∃ t u, (Value.tuple [.text "(", .tuple [.list
          [.tuple [.text "(", .tuple [.list [], .text ")"]],
            .tuple [.text "(", .tuple [.list [], .none]]], .none]]).flatten? = some t ∧
        Value.text [] = .text u ∧ t ++ u = ("(()(" : Text) := by
  have hparts : (recursive "group" groups).Throughout .texts IsConservative :=
    throughout_of_closed (fun _ _ => GroupPart.uses) (fun _ => GroupPart.isConservative) .recursive
  have hreturns : ((recursive "group" groups).run 4 (.text "(()(")).Returns
      (.success (.text []) (.tuple [.text "(", .tuple [.list
        [.tuple [.text "(", .tuple [.list [], .text ")"]],
          .tuple [.text "(", .tuple [.list [], .none]]], .none]])) := by
    have hclosed : (groupTail (handle "group" groups)).run 2 (.text ")(") =
        pure (.success (.text "(") (.tuple [.list [], .text ")"])) :=
      run_groupTail_text (many_groups_text_refuses 1 (by decide)) rfl
    have hopen : (groupTail (handle "group" groups)).run 2 (.text []) =
        pure (.success (.text []) (.tuple [.list [], .none])) :=
      run_groupTail_text (many_groups_text_refuses 1 (by decide)) rfl
    have hfirst : (wrap .backtrack (handle "group" groups)).run 3 (.text ("()" ++ "(")) =
        pure (.success (.text "(") (.tuple [.text "(", .tuple [.list [], .text ")"]])) :=
      backtrack_groups_text hclosed
    have hsecond : (wrap .backtrack (handle "group" groups)).run 3
        (.text (Text.ofString "(" ++ [])) =
          pure (.success (.text []) (.tuple [.text "(", .tuple [.list [], .none]])) :=
      backtrack_groups_text hopen
    have hmany : (wrap .many (wrap .backtrack (handle "group" groups))).run 3 (.text "()(") =
        pure (.success (.text []) (.list [.tuple [.text "(", .tuple [.list [], .text ")"]],
          .tuple [.text "(", .tuple [.list [], .none]]])) := by
      rw [run_wrap]
      show Rule.manyFrom _ _ [] (.text ("()" ++ "(")) = _
      rw [Rule.manyFrom_text_step (by decide) hfirst]
      show Rule.manyFrom _ _ _ (.text (Text.ofString "(" ++ [])) = _
      rw [Rule.manyFrom_text_step (by decide) hsecond]
      exact Rule.manyFrom_stop (backtrack_groups_text_refuses 2 (by decide))
    exact ⟨0, congrArg Trace.result (congrFun (run_groups_text (run_groupTail_text hmany rfl)) 0)⟩
  exact ⟨hparts, hreturns, flatten_append_rest hparts hreturns⟩

end Grammar

end ParserCombinators
