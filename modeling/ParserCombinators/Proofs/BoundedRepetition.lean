import ParserCombinators.Proofs.Calls
import ParserCombinators.Proofs.Counted
import ParserCombinators.Proofs.Suffix

/-!
How often a repetition calls its parser. The parser may leave anything, also more than
it was given, as long as it always replies with an outcome that leaves a sequence. The
loops end by their comparison of lengths: every round but the last leaves less than
the one before it. Below a lower bound a round may leave more, but then the matches that
are missing get fewer.
-/

namespace ParserCombinators

open Run

/-- On every sequence, whenever it is called, the rule replies with an outcome that leaves
a sequence. -/
def Rule.IsTotal (p : Rule) : Prop := ∀ input made, input.isSequence = true →
  ∃ events made' next, next.isSequence = true ∧
    ((∃ v, p input made = ⟨events, made', .ok (.success next v)⟩) ∨
      ∃ e, p input made = ⟨events, made', .ok (.failure next e)⟩)

theorem Rule.IsTotal.isSequence_of_success {p : Rule} (hp : p.IsTotal) {input next v : Value}
    {made made' : Nat} {events : List Event} (hinput : input.isSequence = true)
    (hv : p input made = ⟨events, made', .ok (.success next v)⟩) : next.isSequence = true := by
  obtain ⟨events', made'', next', hnext, ⟨w, hw⟩ | ⟨e, he⟩⟩ := hp input made hinput
  · cases hv.symm.trans hw
    exact hnext
  · cases hv.symm.trans he

namespace Rule

variable {p q : Rule} {error : Value} {E : Fault → Prop}

section Repetitions

/-- A round of a repetition without a lower bound is one call. The loop goes on with at most
`n` calls, and only if the match has left less than there was. -/
theorem endsWithin_attempt {n made : Nat} {rest : Value} (hp : p.IsTotal)
    (hrest : rest.isSequence = true) (outputs : List Value) (stop : Run Value)
    (more : Value → Value → Rule → Run Value)
    (hstop : ∀ made, (stop made).EndsIn Value.LeavesSequence E)
    (hmore : ∀ made next v, next.isSequence = true → next.size < rest.size →
      EndsWithin n (more v next) p made Value.LeavesSequence E) :
    EndsWithin (n + 1) (fun p => do
      let r ← p rest
      if r.isTrue then
        let next ← r.rest
        next.comparable rest
        if next.size < rest.size then
          let v ← r.output
          more v next p
        else stop
      else
        let next ← r.rest
        accept next (.list outputs)) p made Value.LeavesSequence E := by
  obtain ⟨events, made', next, hnext, ⟨v, hv⟩ | ⟨e, he⟩⟩ := hp rest made hrest
  · refine .call hv ?_
    simp only [Value.isTrue_success, if_true, Value.rest_success, pure_bind,
      comparable_of_isSequence hnext hrest, Value.output_success]
    by_cases hlt : next.size < rest.size
    · simp only [if_pos hlt]
      exact hmore made' next v hnext hlt
    · simp only [if_neg hlt]
      exact .steady (hstop made')
  · refine .call he ?_
    simp only [Value.isTrue_failure, Bool.false_eq_true, if_false, Value.rest_failure, pure_bind]
    exact .pure ⟨next, hnext, .inl ⟨_, rfl⟩⟩

theorem endsWithin_manyFrom (hp : p.IsTotal) {onStall : Nat → Run Unit}
    (hstall : ∀ left made, (onStall left made).result = .ok ()) (n : Nat) :
    ∀ (outputs : List Value) (rest : Value) (made : Nat), rest.isSequence = true →
      rest.size = n →
      EndsWithin (n + 1) (fun p => manyFrom onStall p outputs rest) p made
        Value.LeavesSequence E := by
  induction n using Nat.strongRecOn with
  | ind n ih =>
    intro outputs rest made hrest hn
    refine EndsWithin.congr (fun p => manyFrom.eq_1 onStall p outputs rest) ?_
    refine endsWithin_attempt hp hrest outputs
      (onStall rest.size >>= fun _ => accept rest (.list outputs))
      (fun v next p => manyFrom onStall p (outputs ++ [v]) next) (fun made => ?_)
      fun made next v hnext hlt => ?_
    · rw [bind_apply_ok (eq_of_result (hstall rest.size made))]
      exact .inl ⟨_, rfl, rest, hrest, .inl ⟨_, rfl⟩⟩
    · exact (ih next.size (hn ▸ hlt) _ next made hnext rfl).mono (by omega)

theorem endsWithin_atMostFrom (hp : p.IsTotal) (allowed : Nat) :
    ∀ (outputs : List Value) (rest : Value) (made : Nat), rest.isSequence = true →
      EndsWithin (min allowed (rest.size + 1)) (fun p => atMostFrom p allowed outputs rest) p
        made Value.LeavesSequence E := by
  induction allowed with
  | zero => exact fun outputs rest made hrest => .pure ⟨rest, hrest, .inl ⟨_, rfl⟩⟩
  | succ allowed ih =>
    intro outputs rest made hrest
    have hbound : min (allowed + 1) (rest.size + 1) = min allowed rest.size + 1 := by omega
    rw [hbound]
    refine endsWithin_attempt hp hrest outputs (accept rest (.list outputs))
      (fun v next p => atMostFrom p allowed (outputs ++ [v]) next)
      (fun _ => .inl ⟨_, rfl, rest, hrest, .inl ⟨_, rfl⟩⟩) fun made next v hnext hlt => ?_
    exact (ih _ next made hnext).mono (by omega)

theorem endsWithin_exactlyFrom (hp : p.IsTotal) (missing : Nat) :
    ∀ (outputs : List Value) (rest : Value) (made : Nat), rest.isSequence = true →
      EndsWithin missing (fun p => exactlyFrom error p missing outputs rest) p made
        Value.LeavesSequence E := by
  induction missing with
  | zero => exact fun outputs rest made hrest => .pure ⟨rest, hrest, .inl ⟨_, rfl⟩⟩
  | succ missing ih =>
    intro outputs rest made hrest
    obtain ⟨events, made', next, hnext, ⟨v, hv⟩ | ⟨e, he⟩⟩ := hp rest made hrest
    · refine .call hv ?_
      simp only [Value.isTrue_success, if_true, Value.rest_success, pure_bind,
        Value.output_success]
      exact ih _ next made' hnext
    · refine .call he ?_
      simp only [Value.isTrue_failure, Bool.false_eq_true, if_false, Value.rest_failure,
        pure_bind]
      exact .pure ⟨next, hnext, .inr ⟨_, rfl⟩⟩

/-- So many matches in a row, each of which goes on from what the one before it has left,
whether they consume anything or not: from an input to what the last one leaves. -/
inductive AfterMatches (p : Rule) : Nat → Value → Nat → Value → Nat → Prop
  | zero (input : Value) (made : Nat) : AfterMatches p 0 input made input made
  | succ {n : Nat} {input next rest v : Value} {made made' made'' : Nat} {events : List Event}
      (hv : p input made = ⟨events, made', .ok (.success next v)⟩)
      (hrest : AfterMatches p n next made' rest made'') :
      AfterMatches p (n + 1) input made rest made''

variable {count n : Nat} {input rest : Value} {made made' : Nat}

theorem AfterMatches.size_le (h : AfterMatches p n input made rest made')
    (hp : p.LeavesSuffixes) (hinput : input.isSequence = true) : rest.size ≤ input.size := by
  induction h with
  | zero => exact Nat.le_refl _
  | @succ n input next rest v made made' made'' events hv _ ih =>
    have hnext : next.IsSuffixOf input := hp input _ next hinput ⟨made, by rw [hv]⟩ rfl
    have hsequence : next.isSequence = true := by
      rw [hnext.2, Value.isSequence_dropFirst, hinput]
    exact Nat.le_trans (ih hsequence) hnext.1

/-- A match before the count is reached is one round. -/
theorem endsWithin_atLeastFrom_of_success {next v : Value} {events : List Event}
    {outputs : List Value} (hinput : input.isSequence = true)
    (hv : p input made = ⟨events, made', .ok (.success next v)⟩)
    (hnext : next.isSequence = true) (hfew : outputs.length < count)
    (h : EndsWithin n (fun p => atLeastFrom count error p (outputs ++ [v]) next) p made'
      Value.LeavesSequence E) :
    EndsWithin (n + 1) (fun p => atLeastFrom count error p outputs input) p made
      Value.LeavesSequence E := by
  have hmore : ¬ (input.size ≤ next.size ∧ count ≤ outputs.length) := by omega
  refine EndsWithin.congr (fun p => atLeastFrom.eq_1 count error p outputs input) ?_
  refine .call hv ?_
  simp only [Value.isTrue_success, if_true, Value.rest_success, pure_bind,
    comparable_of_isSequence hnext hinput, if_neg hmore, Value.output_success]
  exact h

/-- While matches are missing, each round is one of them. Then the loop is that of `many`,
on what the last of them has left. -/
theorem endsWithin_atLeastFrom (h : AfterMatches p n input made rest made') (hp : p.IsTotal) :
    ∀ outputs : List Value, input.isSequence = true → outputs.length + n = count →
      EndsWithin (n + rest.size + 1) (fun p => atLeastFrom count error p outputs input) p made
        Value.LeavesSequence E := by
  induction h with
  | zero input made =>
    intro outputs hinput hcount
    rw [Nat.zero_add]
    refine EndsWithin.congr
      (fun p => atLeastFrom_eq_manyFrom input.size outputs input rfl (by omega)) ?_
    exact endsWithin_manyFrom hp (fun _ _ => rfl) input.size outputs input made hinput rfl
  | @succ n input next rest v made made' made'' events hv _ ih =>
    intro outputs hinput hcount
    have hbound : n + 1 + rest.size + 1 = n + rest.size + 1 + 1 := by omega
    rw [hbound]
    have hnext : next.isSequence = true := hp.isSequence_of_success hinput hv
    refine endsWithin_atLeastFrom_of_success hinput hv hnext (by omega) (ih _ hnext ?_)
    rw [List.length_append, List.length_singleton]
    omega

/-- If there are not so many matches, one of the rounds up to there is a mismatch. -/
theorem endsWithin_atLeastFrom_few (hp : p.IsTotal) (n : Nat) :
    ∀ (outputs : List Value) (input : Value) (made : Nat), input.isSequence = true →
      outputs.length + n = count → (¬ ∃ rest made', AfterMatches p n input made rest made') →
      EndsWithin n (fun p => atLeastFrom count error p outputs input) p made
        Value.LeavesSequence E := by
  induction n with
  | zero => exact fun _ input made _ _ hnone => absurd ⟨input, made, .zero input made⟩ hnone
  | succ n ih =>
    intro outputs input made hinput hcount hnone
    obtain ⟨events, made', next, hnext, ⟨v, hv⟩ | ⟨e, he⟩⟩ := hp input made hinput
    · have hless : ¬ ∃ rest made'', AfterMatches p n next made' rest made'' := by
        rintro ⟨rest, made'', hrest⟩
        exact hnone ⟨rest, made'', .succ hv hrest⟩
      refine endsWithin_atLeastFrom_of_success hinput hv hnext (by omega)
        (ih _ next made' hnext ?_ hless)
      rw [List.length_append, List.length_singleton]
      omega
    · have hfew : outputs.length < count := by omega
      refine EndsWithin.congr (fun p => atLeastFrom.eq_1 count error p outputs input) ?_
      refine .call he ?_
      simp only [Value.isTrue_failure, Bool.false_eq_true, if_false, Value.rest_failure,
        pure_bind, if_pos hfew]
      exact .pure ⟨next, hnext, .inr ⟨_, rfl⟩⟩

end Repetitions

section Separators

variable {rest : Value} {made : Nat}

/-- A round of a separator and an item is one call of the separator. Only the two together
have to leave less than there was. -/
theorem endsWithin_round {β : Type} {Q : β → Prop} (hp : p.IsTotal) (hq : q.IsTotal)
    (hrest : rest.isSequence = true) (stop : Run β)
    (more : Value → Value → Value → Rule → Run β)
    (hstop : ∀ made, (stop made).EndsIn Q E)
    (hmore : ∀ made middle f next v, (q rest).Returns (.success middle f) →
      next.isSequence = true → next.size < rest.size →
      EndsWithin (next.size + 1) (more (.success middle f) (.success next v) next) q made Q E) :
    EndsWithin (rest.size + 1) (fun q => do
      let s ← q rest
      if s.isTrue then
        let middle ← s.rest
        let r ← p middle
        if r.isTrue then
          let next ← r.rest
          next.comparable rest
          if next.size < rest.size then more s r next q else stop
        else stop
      else stop) q made Q E := by
  obtain ⟨events, made', middle, hmiddle, ⟨f, hf⟩ | ⟨e, he⟩⟩ := hq rest made hrest
  · refine .call hf ?_
    simp only [Value.isTrue_success, if_true, Value.rest_success, pure_bind]
    obtain ⟨events', made'', next, hnext, ⟨v, hv⟩ | ⟨e, he⟩⟩ := hp middle made' hmiddle
    · refine .after hv ?_
      simp only [Value.isTrue_success, if_true, Value.rest_success, pure_bind,
        comparable_of_isSequence hnext hrest]
      by_cases hlt : next.size < rest.size
      · simp only [if_pos hlt]
        have hreturns : (q rest).Returns (.success middle f) := ⟨made, by rw [hf]⟩
        exact (hmore made'' middle f next v hreturns hnext hlt).mono (by omega)
      · simp only [if_neg hlt]
        exact .steady (hstop made'')
    · refine .after he ?_
      simp only [Value.isTrue_failure, Bool.false_eq_true, if_false]
      exact .steady (hstop made'')
  · refine .call he ?_
    simp only [Value.isTrue_failure, Bool.false_eq_true, if_false]
    exact .steady (hstop made')

theorem endsWithin_separatedFrom (hp : p.IsTotal) (hq : q.IsTotal) (n : Nat) :
    ∀ (outputs : List Value) (rest : Value) (made : Nat), rest.isSequence = true →
      rest.size = n →
      EndsWithin (n + 1) (fun q => separatedFrom p q outputs rest) q made
        (fun x => x.1.isSequence = true) E := by
  induction n using Nat.strongRecOn with
  | ind n ih =>
    intro outputs rest made hrest hn
    refine EndsWithin.congr (fun q => separatedFrom.eq_1 p q outputs rest) ?_
    subst hn
    refine endsWithin_round hp hq hrest (pure (rest, outputs))
      (fun _ r next q => r.output >>= fun v => separatedFrom p q (outputs ++ [v]) next)
      (fun _ => .inl ⟨_, rfl, hrest⟩) fun made _ _ next v _ hnext hlt => ?_
    simp only [Value.output_success, pure_bind]
    exact ih next.size hlt _ next made hnext rfl

/-- What the rule outputs where it matches. -/
def Outputs (q : Rule) (f : Value) : Prop :=
  ∃ input rest, (q input).Returns (.success rest f)

/-- The operators that a chain to the right has collected are outputs of its rule for them. -/
theorem endsWithin_chainRightFrom (hp : p.IsTotal) (hq : q.IsTotal) (n : Nat) :
    ∀ (links : List (Value × Value)) (last rest : Value) (made : Nat), rest.isSequence = true →
      rest.size = n → (∀ link ∈ links, q.Outputs link.2) →
      EndsWithin (n + 1) (fun q => chainRightFrom p q links last rest) q made
        (fun x => x.1.isSequence = true ∧ ∀ link ∈ x.2.1, q.Outputs link.2) E := by
  induction n using Nat.strongRecOn with
  | ind n ih =>
    intro links last rest made hrest hn hlinks
    refine EndsWithin.congr (fun q => chainRightFrom.eq_1 p q links last rest) ?_
    subst hn
    refine endsWithin_round hp hq hrest (pure (rest, links, last))
      (fun s r next q => s.output >>= fun f => r.output >>= fun v =>
        chainRightFrom p q (links ++ [(last, f)]) v next)
      (fun _ => .inl ⟨_, rfl, hrest, hlinks⟩) fun made middle f next v hf hnext hlt => ?_
    simp only [Value.output_success, pure_bind]
    refine ih next.size hlt _ v next made hnext rfl fun link hlink => ?_
    rcases List.mem_append.mp hlink with hlink | hlink
    · exact hlinks link hlink
    · obtain rfl := List.mem_singleton.mp hlink
      exact ⟨rest, middle, hf⟩

/-- The faults in which an operator may end when it is applied to two operands. -/
def OperatorFault (invoke : Value → List Value → Run Value) (q : Rule) (e : Fault) : Prop :=
  ∃ f v w made, q.Outputs f ∧ (invoke f [v, w] made).result = .error e

variable {invoke : Value → List Value → Run Value}

theorem endsIn_invoke {f : Value} (hf : q.Outputs f) (v w : Value) (made : Nat) :
    (invoke f [v, w] made).EndsIn (fun _ => True) (OperatorFault invoke q) := by
  rcases h : (invoke f [v, w] made).result with e | u
  · exact .inr ⟨e, h, f, v, w, made, hf, h⟩
  · exact .inl ⟨u, h, trivial⟩

theorem endsWithin_chainLeftFrom (hp : p.IsTotal) (hq : q.IsTotal) (n : Nat) :
    ∀ (result rest : Value) (made : Nat), rest.isSequence = true → rest.size = n →
      EndsWithin (n + 1) (fun q => chainLeftFrom invoke p q result rest) q made
        Value.LeavesSequence (OperatorFault invoke q) := by
  induction n using Nat.strongRecOn with
  | ind n ih =>
    intro result rest made hrest hn
    refine EndsWithin.congr (fun q => chainLeftFrom.eq_1 invoke p q result rest) ?_
    subst hn
    refine endsWithin_round hp hq hrest (accept rest result)
      (fun s r next q => s.output >>= fun f => r.output >>= fun v =>
        invoke f [result, v] >>= fun combined => chainLeftFrom invoke p q combined next)
      (fun _ => .inl ⟨_, rfl, rest, hrest, .inl ⟨_, rfl⟩⟩)
      fun made middle f next v hf hnext hlt => ?_
    simp only [Value.output_success, pure_bind]
    have hinvoke : (invoke f [result, v] made).EndsIn (fun _ => True) (OperatorFault invoke q) :=
      endsIn_invoke ⟨rest, middle, hf⟩ result v made
    refine (EndsWithin.steady (n := 0) hinvoke).bind fun _ made combined _ _ => ?_
    exact ih next.size hlt combined next made hnext rfl

theorem endsIn_combineRight (last : Value) (links : List (Value × Value)) (made : Nat)
    (hlinks : ∀ link ∈ links, q.Outputs link.2) :
    (combineRight invoke last links made).EndsIn (fun _ => True) (OperatorFault invoke q) := by
  induction links with
  | nil => exact .inl ⟨last, rfl, trivial⟩
  | cons link links ih =>
    obtain ⟨hlink, hlinks⟩ := List.forall_mem_cons.mp hlinks
    rw [combineRight]
    rcases h : combineRight invoke last links made with ⟨events, made', e | result⟩
    · have hends := ih hlinks
      rw [h] at hends
      rw [bind_apply_error h]
      obtain ⟨_, hok, -⟩ | ⟨e', he, hfault⟩ := hends
      · cases hok
      · exact .inr ⟨e, rfl, Except.error.inj he ▸ hfault⟩
    · rw [bind_apply_ok h]
      exact endsIn_invoke hlink link.1 result made'

variable {input first r : Value}

/-- What comes after the first item, which is no round yet. -/
theorem endsWithin_afterFirst {H : Value → Rule → Run Value} (hp : p.IsTotal)
    (hinput : input.isSequence = true) (hfirst : (p input made).result = .ok first)
    (hr : first.rest? = some r)
    (hmatch : ∀ made next v, next.isSequence = true →
      EndsWithin (next.size + 1) (H (.success next v)) q made Value.LeavesSequence E)
    (hmismatch : ∀ made next e, next.isSequence = true →
      EndsWithin 0 (H (.failure next e)) q made Value.LeavesSequence E) :
    EndsWithin (r.size + 1) (fun q => p input >>= fun first => H first q) q made
      Value.LeavesSequence E := by
  obtain ⟨events, made', next, hnext, ⟨v, hv⟩ | ⟨e, he⟩⟩ := hp input made hinput
  · rw [hv] at hfirst
    obtain rfl := Except.ok.inj hfirst
    obtain rfl := Option.some.inj hr
    exact .after hv (hmatch made' next v hnext)
  · rw [he] at hfirst
    obtain rfl := Except.ok.inj hfirst
    exact .after he ((hmismatch made' next e hnext).mono (Nat.zero_le _))

/-- Separated lists, which differ in what they make of an input without a first item. -/
theorem endsWithin_separated {otherwise : Run Value} (hp : p.IsTotal) (hq : q.IsTotal)
    (hinput : input.isSequence = true) (hfirst : (p input made).result = .ok first)
    (hr : first.rest? = some r)
    (hother : ∀ made, (otherwise made).EndsIn Value.LeavesSequence E) :
    EndsWithin (r.size + 1) (fun q => do
      let r ← p input
      if r.isTrue then
        let next ← r.rest
        let v ← r.output
        let (rest, outputs) ← separatedFrom p q [v] next
        accept rest (.list outputs)
      else otherwise) q made Value.LeavesSequence E := by
  refine endsWithin_afterFirst hp hinput hfirst hr (fun made next v hnext => ?_) ?_
  · simp only [Value.isTrue_success, if_true, Value.rest_success, pure_bind,
      Value.output_success]
    have hrounds := endsWithin_separatedFrom (E := E) hp hq next.size [v] next made hnext rfl
    refine (hrounds.bind (n := 0) fun _ made x _ hx => ?_).mono (by omega)
    exact .pure ⟨x.1, hx, .inl ⟨_, rfl⟩⟩
  · intro made next e hnext
    simp only [Value.isTrue_failure, Bool.false_eq_true, if_false]
    exact .steady (hother made)

theorem endsWithin_chainLeft (hp : p.IsTotal) (hq : q.IsTotal) (hinput : input.isSequence = true)
    (hfirst : (p input made).result = .ok first) (hr : first.rest? = some r) :
    EndsWithin (r.size + 1) (fun q => chainLeft invoke p q input) q made Value.LeavesSequence
      (OperatorFault invoke q) := by
  refine endsWithin_afterFirst hp hinput hfirst hr (fun made next v hnext => ?_) ?_
  · simp only [Value.isTrue_success, if_true, Value.rest_success, pure_bind,
      Value.output_success]
    exact endsWithin_chainLeftFrom hp hq next.size v next made hnext rfl
  · intro made next e hnext
    simp only [Value.isTrue_failure, Bool.false_eq_true, if_false]
    exact .pure ⟨next, hnext, .inr ⟨e, rfl⟩⟩

theorem endsWithin_chainRight (hp : p.IsTotal) (hq : q.IsTotal)
    (hinput : input.isSequence = true) (hfirst : (p input made).result = .ok first)
    (hr : first.rest? = some r) :
    EndsWithin (r.size + 1) (fun q => chainRight invoke p q input) q made Value.LeavesSequence
      (OperatorFault invoke q) := by
  refine endsWithin_afterFirst hp hinput hfirst hr (fun made next v hnext => ?_) ?_
  · simp only [Value.isTrue_success, if_true, Value.rest_success, pure_bind,
      Value.output_success]
    have hrounds := endsWithin_chainRightFrom (E := OperatorFault invoke q) hp hq next.size [] v
      next made hnext rfl nofun
    refine (hrounds.bind (n := 0) fun _ made x _ hx => ?_).mono (by omega)
    have hcombine : (combineRight invoke x.2.2 x.2.1 made).EndsIn (fun _ => True)
        (OperatorFault invoke q) := endsIn_combineRight x.2.2 x.2.1 made hx.2
    refine (EndsWithin.steady (n := 0) hcombine).bind (n := 0) fun _ made result _ _ => ?_
    exact .pure ⟨x.1, hx.1, .inl ⟨result, rfl⟩⟩
  · intro made next e hnext
    simp only [Value.isTrue_failure, Bool.false_eq_true, if_false]
    exact .pure ⟨next, hnext, .inr ⟨e, rfl⟩⟩

end Separators

/-- Every repetition ends, whatever sequences its parsers leave, and replies with such an
outcome again. Without a count the parser is called at most once more than the input has
elements. No more calls are made than an upper bound or a fixed number allows. Below a
lower bound each call is a match or the last call; from there on, the parser is called at
most once more than the match that reached the bound has left elements. A list or a chain
calls its separator at most once more than the first item has left elements; nothing but
an operator that raises breaks a chain off. -/
theorem repetitions_end (hp : p.IsTotal) (hq : q.IsTotal) {input : Value}
    (hinput : input.isSequence = true) (made count : Nat) (error : Value) (line : Nat → Text)
    (invoke : Value → List Value → Run Value) :
    RepliesWithin (input.size + 1) (fun p => p.many (fun left => Run.log (line left)) input) p
      made ∧
    RepliesWithin (min count (input.size + 1)) (fun p => p.atMost count input) p made ∧
    RepliesWithin count (fun p => p.exactly count error input) p made ∧
    (∀ rest made', AfterMatches p count input made rest made' →
      RepliesWithin (count + rest.size + 1) (fun p => p.atLeast count error input) p made) ∧
    ((¬ ∃ rest made', AfterMatches p count input made rest made') →
      RepliesWithin count (fun p => p.atLeast count error input) p made) ∧
    (p.LeavesSuffixes →
      RepliesWithin (count + input.size + 1) (fun p => p.atLeast count error input) p made) ∧
    ∃ first r, (p input made).result = .ok first ∧ first.rest? = some r ∧
      RepliesWithin (r.size + 1) (fun q => p.sepBy q input) q made ∧
      RepliesWithin (r.size + 1) (fun q => sepBy1 error p q input) q made ∧
      EndsWithin (r.size + 1) (fun q => chainLeft invoke p q input) q made
        Value.LeavesSequence (OperatorFault invoke q) ∧
      EndsWithin (r.size + 1) (fun q => chainRight invoke p q input) q made
        Value.LeavesSequence (OperatorFault invoke q) := by
  have hreached : ∀ rest made', AfterMatches p count input made rest made' →
      RepliesWithin (count + rest.size + 1) (fun p => p.atLeast count error input) p made :=
    fun rest made' h => endsWithin_atLeastFrom h hp [] hinput (Nat.zero_add count)
  have hmissed : (¬ ∃ rest made', AfterMatches p count input made rest made') →
      RepliesWithin count (fun p => p.atLeast count error input) p made :=
    endsWithin_atLeastFrom_few hp count [] input made hinput (Nat.zero_add count)
  refine ⟨endsWithin_manyFrom hp (fun _ _ => rfl) input.size [] input made hinput rfl,
    endsWithin_atMostFrom hp count [] input made hinput,
    endsWithin_exactlyFrom hp count [] input made hinput, hreached, hmissed,
    fun hsuffixes => ?_, ?_⟩
  · by_cases h : ∃ rest made', AfterMatches p count input made rest made'
    · obtain ⟨rest, made', hmatches⟩ := h
      have hsize := hmatches.size_le hsuffixes hinput
      exact (hreached rest made' hmatches).mono (by omega)
    · exact (hmissed h).mono (by omega)
  · have hfirst : ∃ first r, (p input made).result = .ok first ∧ first.rest? = some r := by
      obtain ⟨events, made', next, -, ⟨v, hv⟩ | ⟨e, he⟩⟩ := hp input made hinput
      · exact ⟨.success next v, next, by rw [hv], rfl⟩
      · exact ⟨.failure next e, next, by rw [he], rfl⟩
    obtain ⟨first, r, hfirst, hr⟩ := hfirst
    have hempty : ∀ made, (accept input (.list []) made).EndsIn Value.LeavesSequence
        fun _ => False := fun _ => .inl ⟨_, rfl, input, hinput, .inl ⟨_, rfl⟩⟩
    have herror : ∀ made, (reject input error made).EndsIn Value.LeavesSequence
        fun _ => False := fun _ => .inl ⟨_, rfl, input, hinput, .inr ⟨_, rfl⟩⟩
    exact ⟨first, r, hfirst, hr, endsWithin_separated hp hq hinput hfirst hr hempty,
      endsWithin_separated hp hq hinput hfirst hr herror,
      endsWithin_chainLeft hp hq hinput hfirst hr, endsWithin_chainRight hp hq hinput hfirst hr⟩

/-- Leaves three letters of whatever it is given. -/
def leavingLetters : Rule := fun _ => accept (.text "abc") .none

/-- A parser that may leave more than it is given, with a separator that consumes nothing
and is also repeated by itself. -/
theorem repetitions_end_growing :
    leavingLetters.IsTotal ∧ (always .none).IsTotal ∧ (always .none).LeavesSuffixes ∧
      (Value.text "a").isSequence = true ∧
      RepliesWithin 2 (fun p => p.many (fun _ => Run.log "stalled") (.text "a"))
        leavingLetters 0 ∧
      RepliesWithin 6 (fun p => p.atLeast 2 .none (.text "a")) leavingLetters 0 ∧
      RepliesWithin 4 (fun q => leavingLetters.sepBy q (.text "a")) (always .none) 0 ∧
      RepliesWithin 4 (fun p => p.atLeast 2 .none (.text "a")) (always .none) 0 := by
  have hletters : leavingLetters.IsTotal :=
    fun _ made _ => ⟨[], made, .text "abc", rfl, .inl ⟨.none, rfl⟩⟩
  have hnothing : (always .none).IsTotal :=
    fun input made hinput => ⟨[], made, input, hinput, .inl ⟨.none, rfl⟩⟩
  have hsuffixes : (always .none).LeavesSuffixes :=
    (Logic.fits_always (S := .same) (uniform_const trivial)).leavesSuffixes
  have hinput : (Value.text "a").isSequence = true := rfl
  have hmatches : AfterMatches leavingLetters 2 (.text "a") 0 (.text "abc") 0 :=
    .succ rfl (.succ rfl (.zero _ _))
  obtain ⟨hmany, -, -, hatLeast, -, -, first, r, hfirst, hr, hsepBy, -⟩ :=
    repetitions_end hletters hnothing hinput 0 2 .none (fun _ => "stalled") fun _ _ => pure .none
  obtain ⟨-, -, -, -, -, hshrinking, -⟩ :=
    repetitions_end hnothing hnothing hinput 0 2 .none (fun _ => "stalled") fun _ _ => pure .none
  obtain rfl := Except.ok.inj hfirst
  obtain rfl := Option.some.inj hr
  exact ⟨hletters, hnothing, hsuffixes, hinput, hmany, hatLeast _ _ hmatches, hsepBy,
    hshrinking hsuffixes⟩

end Rule

end ParserCombinators
