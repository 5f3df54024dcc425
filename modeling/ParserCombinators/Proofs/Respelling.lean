import ParserCombinators.Proofs.Grammar.Part
import ParserCombinators.Proofs.Integer

/-!
A text and the row of its characters, in a list or a tuple. A parser that sees
nothing of its input but the elements cannot tell them apart: it replies to both
with the same contents, leaves the same events behind, and of a row it leaves
the row of what it leaves of the text.
-/

namespace ParserCombinators

open Run Run.Logic

/-- The kinds of sequence that characters can stand in one by one. -/
inductive Row
  | list
  | tuple

namespace Row

/-- The row of the elements of a value. -/
def spell (row : Row) (v : Value) : Value :=
  match row with
  | list => .list v.elements
  | tuple => .tuple v.elements

variable (row : Row) (v : Value) (t : Text)

theorem elements_spell : (row.spell v).elements = v.elements := by
  cases row <;> rfl

theorem size_spell : (row.spell v).size = v.size := by
  rw [← Value.length_elements, elements_spell, Value.length_elements]

theorem isSequence_spell : (row.spell v).isSequence = true := by
  cases row <;> rfl

theorem dropFirst_spell (n : Nat) :
    (row.spell (.text t)).dropFirst n = row.spell ((Value.text t).dropFirst n) := by
  cases row <;> simp [spell, Value.dropFirst, Value.elements]

end Row

/-- An outcome with its rest as a row. -/
def Value.respell (row : Row) : Value → Value
  | success rest v => success (row.spell rest) v
  | failure rest e => failure (row.spell rest) e
  | r => r

/-- A text beside its row. The index is `true` at the text. -/
def Scope.spelled (row : Row) : Scope Bool where
  inputs a := ∃ t : Text, a = fun b => cond b (.text t) (row.spell (.text t))
  leaves a b := ∃ n, b = fun i => (a i).dropFirst n
  refl {a} _ := ⟨0, funext fun i => ((a i).dropFirst_zero).symm⟩
  trans := by
    intro a a' b ha' hb
    obtain ⟨m, rfl⟩ := ha'
    obtain ⟨n, rfl⟩ := hb
    exact ⟨m + n, funext fun i => (a i).dropFirst_dropFirst m n⟩
  inputs_of_leaves := by
    intro a b ha hb
    obtain ⟨t, rfl⟩ := ha
    obtain ⟨n, rfl⟩ := hb
    refine ⟨t.drop n, funext fun i => ?_⟩
    cases i with
    | false => exact row.dropFirst_spell t n
    | true => rfl
  size_eq := by
    intro a ha
    obtain ⟨t, rfl⟩ := ha
    refine ⟨t.length, fun i => ?_⟩
    cases i with
    | false => exact row.size_spell (.text t)
    | true => rfl
  isSequence_eq := by
    intro a ha
    obtain ⟨t, rfl⟩ := ha
    refine ⟨true, fun i => ?_⟩
    cases i with
    | false => exact row.isSequence_spell (.text t)
    | true => rfl

instance (row : Row) : (Scope.spelled row).Elementwise where
  elements ha := by
    obtain ⟨t, rfl⟩ := ha
    refine ⟨(Value.text t).elements, fun i => ?_⟩
    cases i with
    | false => exact row.elements_spell (.text t)
    | true => rfl
  leaves n _ := ⟨n, rfl⟩

/-- Two runs that leave the same events behind and end alike. -/
def Run.Logic.alongside : Logic Bool := Logic.comparing False id

section Replies

variable {row : Row} {a r : Bool → Value}

theorem respell_of_reply (ha : (Scope.spelled row).inputs a)
    (hr : Reply (Scope.spelled row) .same a r) : r false = (r true).respell row := by
  obtain ⟨t, rfl⟩ := ha
  obtain ⟨⟨n, rfl⟩, ⟨v, -, rfl⟩⟩ | ⟨⟨n, rfl⟩, ⟨e, -, rfl⟩⟩ | ⟨⟨s, -, rfl⟩, hstray⟩ := hr
  · exact congrArg (Value.success · v) (row.dropFirst_spell t n)
  · exact congrArg (Value.failure · e) (row.dropFirst_spell t n)
  · have hrest := hstray.rest?_eq_none true
    cases s with
    | success rest v => cases hrest
    | failure rest e => cases hrest
    | _ => rfl

/-- The contents of the replies are the same. -/
theorem contents_of_reply {X : Scope Bool} (hr : Reply X .same a r) (b : Bool) :
    (r true).output = (r b).output ∧ (r true).error = (r b).error := by
  obtain ⟨-, ⟨v, -, rfl⟩⟩ | ⟨-, ⟨e, -, rfl⟩⟩ | ⟨⟨s, -, rfl⟩, -⟩ := hr
  · exact ⟨rfl, rfl⟩
  · exact ⟨rfl, rfl⟩
  · exact ⟨rfl, rfl⟩

end Replies

namespace Grammar

/-- Whether a node sees nothing of the input but its elements, and does not keep
whole outcomes as a value. -/
def IsGeneric : Grammar → Prop
  | leaf l => l.isGeneric = true
  | wrap w _ => w.isGeneric = true
  | join j _ _ => j ≠ .orBoth
  | _ => True

variable {row : Row} {depth : Nat}

/-- What a grammar replies to one of the two it replies to a text, but for the rest. -/
theorem exists_reply_to_text {g : Grammar}
    (hg : alongside.Fits (Scope.spelled row) .same fun _ => g.run depth) {input : Bool → Value}
    (hinput : (Scope.spelled row).inputs input) {b : Bool} {r : Value}
    (hr : (g.run depth (input b)).Returns r) :
    ∃ t s, (g.run depth (.text t)).Returns s ∧ s.output = r.output ∧ s.error = r.error := by
  obtain ⟨a, ha, rfl, hreturns⟩ := returns_of_comparing (hg input hinput) hr
  obtain ⟨t, rfl⟩ := hinput
  exact ⟨t, a true, hreturns true, contents_of_reply ha b⟩

section Chosen

variable {g : Grammar} (hg : alongside.Fits (Scope.spelled row) .same fun _ => g.run depth)

include hg

theorem canOutput_text_of_reads {v : Bool → Value}
    (hv : (Shape.same.seen (Scope.spelled row) fun _ => g.run depth).reads v) :
    ∃ w, g.CanOutput .texts w ∧ v = fun _ => w := by
  have hsame : Shape.same.reads v := by
    rcases hv with hv | ⟨r, hr, hout⟩
    · exact .inl hv.1
    · exact .inr ⟨r, hr.1, hout⟩
  obtain ⟨w, -, rfl⟩ := uniform_reads hsame
  rcases hv with ⟨-, b, input, rest, hinput, hr⟩ | ⟨r, ⟨-, b, input, hinput, hr⟩, hout⟩
  · obtain ⟨t, s, hs, houtput, -⟩ := exists_reply_to_text hg hinput hr
    exact ⟨w, ⟨depth, .text t, s, ⟨t, rfl⟩, hs, houtput ▸ returns_pure.mpr rfl⟩, rfl⟩
  · obtain ⟨t, s, hs, houtput, -⟩ := exists_reply_to_text hg hinput hr
    have hread : s.output.Returns w := by
      rw [houtput, hout b]
      exact returns_pure.mpr rfl
    exact ⟨w, ⟨depth, .text t, s, ⟨t, rfl⟩, hs, hread⟩, rfl⟩

theorem canFail_text_of_errors {e : Bool → Value}
    (he : (Shape.same.seen (Scope.spelled row) fun _ => g.run depth).errors e) :
    ∃ d, g.CanFail .texts d ∧ e = fun _ => d := by
  obtain ⟨⟨d, -, rfl⟩, b, input, rest, hinput, hr⟩ := he
  obtain ⟨t, s, hs, -, herror⟩ := exists_reply_to_text hg hinput hr
  exact ⟨d, ⟨depth, .text t, s, ⟨t, rfl⟩, hs, herror ▸ returns_pure.mpr rfl⟩, rfl⟩

end Chosen

/-- What calls at a depth are asked to do: generic grammars reply alongside. -/
def CallsSpelled (row : Row) (depth : Nat) : Prop :=
  ∀ g : Grammar, g.Throughout .texts IsGeneric →
    alongside.Fits (Scope.spelled row) .same fun _ => callAt depth g

theorem fits_value_spelled (hcall : CallsSpelled row depth) {v : Value}
    (hv : (leaf (.value v)).Throughout .texts IsGeneric) :
    alongside.Fits (Scope.spelled row) .same fun _ => (Leaf.value v).rule (callAt depth) := by
  refine fits_value ?_ ?_
  · intro identity f heq
    subst heq
    cases hv.self
  · intro identity g heq
    subst heq
    exact hcall g (hv.part (.parser identity g))

theorem holds_chosen_spelled (hcall : CallsSpelled row depth) {f : Callback} {v : Value}
    (hv : ∀ w, (f.apply [v]).Returns w → (leaf (.value w)).Throughout .texts IsGeneric) :
    alongside.Holds (fun _ => f.choose (callAt depth) v)
      (alongside.Fits (Scope.spelled row) .same) :=
  holds_choose fun w hw => fits_value_spelled hcall (hv w hw)

theorem fits_wrapper_spelled (hcall : CallsSpelled row depth) {w : Wrapper} {g : Grammar}
    (h : (wrap w g).Throughout .texts IsGeneric)
    (hg : alongside.Fits (Scope.spelled row) .same fun _ => g.run depth) :
    alongside.Fits (Scope.spelled row) .same fun _ => w.rule (callAt depth) g (g.run depth) := by
  have hchosen : ∀ v, CanChoose .texts w g v → (leaf (.value v)).Throughout .texts IsGeneric :=
    fun v hv => h.part (.chosen hv)
  by_cases hw : w.chooses = false
  · exact fits_wrapper_generic hw h.self (fun n => holds_shared _ fun _ _ => trivial) hg
  · cases w with
    | recoverWith f =>
      refine hg.seen.recoverWith (fun e he => ?_) (fun _ hv => hv.1) fun _ hr => hr.1
      obtain ⟨d, hd, rfl⟩ := canFail_text_of_errors hg he
      exact holds_chosen_spelled hcall fun w hw => hchosen w (.recoverWith hd hw)
    | andThen f =>
      refine hg.seen.andThen (fun v hv => ?_) (fun _ he => he.1) fun _ hr => hr.1
      obtain ⟨v, houtput, rfl⟩ := canOutput_text_of_reads hg hv
      exact holds_chosen_spelled hcall fun w hw => hchosen w (.andThen houtput hw)
    | bind onSuccess onFailure =>
      refine hg.seen.bind (fun v hv => ?_) fun e he => ?_
      · obtain ⟨v, houtput, rfl⟩ := canOutput_text_of_reads hg hv
        exact holds_chosen_spelled hcall fun w hw => hchosen w (.onSuccess houtput hw)
      · obtain ⟨d, hd, rfl⟩ := canFail_text_of_errors hg he
        exact holds_chosen_spelled hcall fun w hw => hchosen w (.onFailure hd hw)
    | _ => exact absurd rfl hw

/-- The step: what calls keep to, the rule of a generic grammar keeps to. -/
theorem fits_rule_spelled (hcall : CallsSpelled row depth) :
    ∀ g : Grammar, g.Throughout .texts IsGeneric →
      alongside.Fits (Scope.spelled row) .same fun _ => g.run depth
  | leaf l, h => by
    rw [run_eq]
    by_cases hl : l.isPlain = true
    · exact fits_leaf_generic hl h.self
    · cases l with
      | element item error =>
        exact fits_accepts fun _ => holds_shared _ fun _ _ => uniform_const trivial
      | value v => exact fits_value_spelled hcall h
      | reply outcome => cases h.self
      | _ => exact absurd rfl hl
  | wrap w g, h => by
    have hg := fits_rule_spelled hcall g (h.part (.inner w g))
    rw [run_wrap]
    exact fits_wrapper_spelled hcall h hg
  | join j g k, h => by
    have hg := fits_rule_spelled hcall g (h.part (.first j g k))
    have hk := fits_rule_spelled hcall k (h.part (.second j g k))
    rw [run_join]
    by_cases hj : j = .apply
    · subst hj
      refine hg.apply hk ?_ (fun _ he => he) (fun _ he => he) (fun _ hr => hr) fun _ hr => hr
      intro a b ha hb
      obtain ⟨f, -, rfl⟩ := ha
      obtain ⟨v, -, rfl⟩ := hb
      exact holds_shared _ fun _ _ => uniform_const trivial
    · exact fits_joint_generic hj h.self hg hk
  | surroundedBy g left right, h => by
    have hg := fits_rule_spelled hcall g (h.part (.inside g left right))
    have hleft := fits_rule_spelled hcall left (h.part (.before g left right))
    have hright := fits_rule_spelled hcall right (h.part (.after g left right))
    rw [run_surroundedBy]
    exact fits_surroundedBy hg hleft hright
  | ref x, _ => by
    rw [run_eq]
    exact fun _ _ => allowsUnwired_comparing
  | recursive x body, h => by
    rw [run_eq]
    exact hcall (unfold x body) (h.part (.recursive x body))
  | recursiveEager x input body, _ => by
    rw [run_eq]
    exact fun _ _ => allowsUnwired_comparing
  | handle x body, h => by
    rw [run_eq]
    exact hcall (unfold x body) (h.part (.handle x body))

theorem fits_run_spelled {g : Grammar} (hg : g.Throughout .texts IsGeneric) :
    alongside.Fits (Scope.spelled row) .same fun _ => g.run depth := by
  induction depth generalizing g with
  | zero =>
    have hcall : CallsSpelled row 0 := fun _ _ _ _ => holds_shared _ fun _ h => absurd h not_returns_fail
    exact fits_rule_spelled hcall g hg
  | succ depth ih =>
    have hcall : CallsSpelled row (depth + 1) := fun _ hg => ih hg
    exact fits_rule_spelled hcall g hg

/-- A generic grammar does the same on a text and on the row of its characters:
it logs the same lines and ends with the same reply, whose rest is the row of the
rest of the text, or with the same fault. -/
theorem run_spell {g : Grammar} (hg : g.Throughout .texts IsGeneric) (row : Row) (depth : Nat)
    (t : Text) :
    g.run depth (row.spell (.text t)) = Value.respell row <$> g.run depth (.text t) := by
  ext1 made
  have hinput : (Scope.spelled row).inputs fun b => cond b (.text t) (row.spell (.text t)) :=
    ⟨t, rfl⟩
  rw [map_apply]
  obtain ⟨hfalse, -⟩ | ⟨events, made', hevents, hend⟩ := fits_run_spelled hg _ hinput made
  · exact hfalse.elim
  rw [List.map_id, List.map_id] at hevents
  rcases hend with ⟨e, he⟩ | ⟨r, hr, hreply⟩
  · have hrow : g.run depth (row.spell (.text t)) made = ⟨events false, made', .error e⟩ := he false
    have htext : g.run depth (.text t) made = ⟨events true, made', .error e⟩ := he true
    rw [hrow, htext, hevents]
    rfl
  · have hrow : g.run depth (row.spell (.text t)) made = ⟨events false, made', .ok (r false)⟩ :=
      hreply false
    have htext : g.run depth (.text t) made = ⟨events true, made', .ok (r true)⟩ := hreply true
    rw [hrow, htext, hevents, respell_of_reply hinput hr]
    rfl

/-- A number sign after which a function goes on with an integer. -/
def numbered : Grammar :=
  wrap (.andThen (.parser 0 (wrap .lexeme (leaf .integer))))
    (leaf (.element (.text "#") (.text "Expected #.")))

theorem numbered_isGeneric : numbered.Throughout .texts IsGeneric := by
  have hinteger : (leaf .integer).Throughout .texts IsGeneric :=
    throughout_of_parts rfl nofun
  have hlexeme : (wrap .lexeme (leaf .integer)).Throughout .texts IsGeneric := by
    refine throughout_of_parts rfl fun k hk => ?_
    cases hk with
    | inner => exact hinteger
    | chosen hv => cases hv
  refine throughout_of_parts rfl fun k hk => ?_
  cases hk with
  | inner => exact throughout_of_parts rfl nofun
  | chosen hv =>
    cases hv with
    | andThen hv hw =>
      rw [returns_pure.mp hw]
      refine throughout_of_parts rfl fun k hk => ?_
      cases hk
      exact hlexeme

/-- A number from a list of characters. -/
theorem run_spell_numbered :
    numbered.Throughout .texts IsGeneric ∧
      (numbered.run 1 (.list [.text "#", .text "4", .text "2", .text " ", .text "!"])).Returns
        (.success (.list [.text "!"]) (.int 42)) := by
  refine ⟨numbered_isGeneric, ?_⟩
  have hdigits : Text.Decimal "42" := by
    show ∀ c ∈ Text.ofString "42", c ∈ CharacterSet.decimal
    decide
  have hvalue : Text.signedValue [] "42" = 42 := by decide
  have hinteger := Rule.integer_text (u := " !") (.inl rfl) hdigits (by decide) (by decide)
  rw [if_pos (by decide), hvalue] at hinteger
  have hlexeme : Rule.integer.lexeme (.text "42 !") = pure (.success (.text "!") (.int 42)) :=
    Rule.lexeme_of_success (t := "42 !") (u := " !") hinteger
  have hrun : numbered.run 1 (.text "#42 !") = Rule.integer.lexeme (.text "42 !") := rfl
  have hspell := run_spell numbered_isGeneric .list 1 "#42 !"
  have hrow : Row.list.spell (.text "#42 !") =
      .list [.text "#", .text "4", .text "2", .text " ", .text "!"] := rfl
  rw [hrow, hrun, hlexeme] at hspell
  rw [hspell]
  exact ⟨0, rfl⟩

end Grammar

end ParserCombinators
