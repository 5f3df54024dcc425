import ParserCombinators.Proofs.Separated

/-!
Repetitions with a count beside the one without. As long as every match consumes
something, all four loops match the same, one match after another. They differ in
what they make of a match that consumes nothing, in whether they try once more
after the last match that is counted, and in what they leave then.
-/

namespace ParserCombinators

open Run

/-- A trace that comes after other events. -/
def Trace.after {α : Type} (t : Trace α) (events : List Event) : Trace α :=
  { t with events := events ++ t.events }

namespace Trace

variable {α : Type}

theorem after_nil (t : Trace α) : t.after [] = t := rfl

theorem after_after (t : Trace α) (events events' : List Event) :
    (t.after events').after events = t.after (events ++ events') := by
  simp [after]

end Trace

/-- A list of outputs with others before it. -/
def Value.prepend (vs : List Value) : Value → Value
  | .success rest (.list ws) => .success rest (.list (vs ++ ws))
  | v => v

theorem Value.prepend_prepend (vs ws : List Value) (r : Value) :
    (r.prepend ws).prepend vs = r.prepend (vs ++ ws) := by
  cases r with
  | success rest v =>
    cases v with
    | list us => simp [prepend]
    | _ => rfl
  | _ => rfl

theorem Value.comparable_of_returns {v w : Value} (h : (v.comparable w).Returns ()) :
    v.comparable w = pure () := by
  unfold comparable at h ⊢
  split
  · rfl
  · rename_i hkinds
    rw [if_neg hkinds] at h
    exact absurd h not_returns_fail

namespace Rule

variable {p : Rule} {onStall : Nat → Run Unit} {error : Value}

section LowerBound

/-- Goes on with as many matches as there are after a list of outputs. -/
def manyAfter (onStall : Nat → Run Unit) (p : Rule) : Value → Run Value
  | .success rest (.list vs) => Value.prepend vs <$> p.many onStall rest
  | r => pure r

/-- So many matches, and then as many as there are. -/
def exactlyThenMany (onStall : Nat → Run Unit) (count : Nat) (error : Value) (p : Rule) : Rule :=
  fun input => do
    let r ← p.exactly count error input
    manyAfter onStall p r

/-- The outputs so far stand before those that are still to come. -/
theorem manyFrom_eq_prepend (n : Nat) : ∀ (outputs : List Value) (rest : Value), rest.size = n →
    manyFrom onStall p outputs rest = Value.prepend outputs <$> manyFrom onStall p [] rest := by
  induction n using Nat.strongRecOn with
  | ind n ih =>
    intro outputs rest hn
    rw [manyFrom, manyFrom, map_bind]
    refine bind_congr fun r => ?_
    by_cases htrue : r.isTrue = true
    · simp only [if_pos htrue, map_bind]
      refine bind_congr fun next => bind_congr fun _ => ?_
      by_cases hlt : next.size < rest.size
      · simp only [if_pos hlt, map_bind]
        refine bind_congr fun v => ?_
        rw [ih next.size (hn ▸ hlt) (outputs ++ [v]) next rfl,
          ih next.size (hn ▸ hlt) ([] ++ [v]) next rfl, ← comp_map]
        refine congrArg (· <$> _) (funext fun s => ?_)
        exact (Value.prepend_prepend outputs [v] s).symm
      · simp only [if_neg hlt, map_bind, accept, map_pure, Value.prepend, List.append_nil]
    · simp only [if_neg htrue, map_bind, accept, map_pure, Value.prepend, List.append_nil]

/-- Once there are enough outputs, a lower bound makes no difference. -/
theorem atLeastFrom_eq_manyFrom {count : Nat} (n : Nat) : ∀ (outputs : List Value) (rest : Value),
    rest.size = n → count ≤ outputs.length →
    atLeastFrom count error p outputs rest = manyFrom (fun _ => pure ()) p outputs rest := by
  induction n using Nat.strongRecOn with
  | ind n ih =>
    intro outputs rest hn hcount
    rw [atLeastFrom, manyFrom]
    refine bind_congr fun r => ?_
    by_cases htrue : r.isTrue = true
    · simp only [if_pos htrue]
      refine bind_congr fun next => bind_congr fun _ => ?_
      by_cases hlt : next.size < rest.size
      · have hmore : ¬ (rest.size ≤ next.size ∧ count ≤ outputs.length) := by omega
        simp only [if_pos hlt, if_neg hmore]
        refine bind_congr fun v => ih next.size (hn ▸ hlt) _ next rfl ?_
        rw [List.length_append]
        omega
      · have hstop : rest.size ≤ next.size ∧ count ≤ outputs.length := by omega
        simp only [if_neg hlt, if_pos hstop, pure_bind]
    · have henough : ¬ outputs.length < count := by omega
      simp only [if_neg htrue, if_neg henough]

theorem atLeast_zero (p : Rule) (error : Value) : p.atLeast 0 error = p.manyQuietly :=
  funext fun input => atLeastFrom_eq_manyFrom _ [] input rfl (Nat.le_refl 0)

/-- While matches are missing, nothing but a mismatch ends the loop. -/
theorem atLeastFrom_eq_exactlyFrom (hp : p.KeepsSequences) {count : Nat} (missing : Nat) :
    ∀ (outputs : List Value) (rest : Value), rest.isSequence = true →
      outputs.length + missing = count →
      atLeastFrom count error p outputs rest =
        exactlyFrom error p missing outputs rest >>= manyAfter (fun _ => pure ()) p := by
  induction missing with
  | zero =>
    intro outputs rest _ hcount
    rw [atLeastFrom_eq_manyFrom _ outputs rest rfl (by omega),
      manyFrom_eq_prepend _ outputs rest rfl]
    rfl
  | succ missing ih =>
    intro outputs rest hrest hcount
    rw [atLeastFrom, exactlyFrom, bind_assoc]
    refine bind_congr_of_returns fun r hr => ?_
    obtain ⟨next, hnext, ⟨v, rfl⟩ | ⟨e, rfl⟩⟩ := hp rest r hrest hr
    · have hmore : ¬ (rest.size ≤ next.size ∧ count ≤ outputs.length) := by omega
      have hlength : (outputs ++ [v]).length + missing = count := by
        rw [List.length_append, List.length_singleton]
        omega
      simp only [Value.isTrue_success, if_true, Value.rest_success, pure_bind,
        comparable_of_isSequence hnext hrest, if_neg hmore, Value.output_success]
      exact ih (outputs ++ [v]) next hnext hlength
    · have hfew : outputs.length < count := by omega
      simp only [Value.isTrue_failure, Bool.false_eq_true, if_false, Value.rest_failure, pure_bind,
        if_pos hfew, reject, manyAfter]

theorem atLeast_eq_exactlyThenMany (hp : p.KeepsSequences) {input : Value}
    (hinput : input.isSequence = true) (count : Nat) (error : Value) :
    p.atLeast count error input = p.exactlyThenMany (fun _ => pure ()) count error input :=
  atLeastFrom_eq_exactlyFrom hp count [] input hinput (Nat.zero_add count)

theorem logsMore_exactlyThenMany (p : Rule) (line : Nat → Text) (count : Nat)
    (error input : Value) (made : Nat) :
    (p.exactlyThenMany (fun _ => pure ()) count error input made).LogsMore
      (p.exactlyThenMany (fun left => Run.log (line left)) count error input made) := by
  refine Trace.LogsMore.bind (fun r _ made => ?_) made
  cases r with
  | success rest v =>
    cases v with
    | list vs => exact (logsMore_many p line rest made).map (Value.prepend vs)
    | _ => exact .refl _
  | _ => exact .refl _

end LowerBound

section Trail

/-- Matches in a row, each of which consumes something: from an input, through the
events and outputs of all of them, to what the last one leaves. -/
inductive Trail (p : Rule) : Value → Nat → List Event → List Value → Value → Nat → Prop
  | nil (input : Value) (made : Nat) : Trail p input made [] [] input made
  | cons {input next last v : Value} {made made' made'' : Nat} {events events' : List Event}
      {vs : List Value} (hv : p input made = ⟨events, made', .ok (.success next v)⟩)
      (hnext : next.comparable input = pure ()) (hlt : next.size < input.size)
      (hvs : Trail p next made' events' vs last made'') :
      Trail p input made (events ++ events') (v :: vs) last made''

variable {input last : Value} {made middle made' : Nat} {events calls : List Event}
  {vs : List Value}

/-- A row of matches is cut in two at any number of them. -/
theorem Trail.split (h : Trail p input made calls vs last middle) :
    ∀ {count : Nat}, count ≤ vs.length → ∃ first second between mid,
      calls = first ++ second ∧ Trail p input made first (vs.take count) mid between ∧
      Trail p mid between second (vs.drop count) last middle := by
  induction h with
  | nil input made =>
    intro count _
    rw [List.take_nil, List.drop_nil]
    exact ⟨[], [], made, input, rfl, .nil input made, .nil input made⟩
  | @cons input next last v made made' made'' events events' vs hv hnext hlt hvs ih =>
    intro count hcount
    cases count with
    | zero => exact ⟨[], _, made, input, rfl, .nil input made, .cons hv hnext hlt hvs⟩
    | succ count =>
      obtain ⟨first, second, between, mid, rfl, hfirst, hsecond⟩ :=
        ih (Nat.le_of_succ_le_succ hcount)
      exact ⟨events ++ first, second, between, mid, (List.append_assoc ..).symm,
        .cons hv hnext hlt hfirst, hsecond⟩

/-- A loop that goes on from every match which consumes something follows a row of
such matches. Its index tells how many of them it still allows or misses. -/
theorem Trail.follow (loop : Nat → List Value → Value → Run Value)
    (hloop : ∀ {n : Nat} {outputs : List Value} {rest next v : Value} {made made' : Nat}
      {events : List Event}, p rest made = ⟨events, made', .ok (.success next v)⟩ →
      next.comparable rest = pure () → next.size < rest.size →
      loop (n + 1) outputs rest made = (loop n (outputs ++ [v]) next made').after events)
    (h : Trail p input made calls vs last middle) (n : Nat) :
    ∀ outputs, loop (n + vs.length) outputs input made =
      (loop n (outputs ++ vs) last middle).after calls := by
  induction h with
  | nil input made =>
    intro outputs
    rw [List.append_nil, Trace.after_nil]
    rfl
  | cons hv hnext hlt _ ih =>
    intro outputs
    rw [List.length_cons, ← Nat.add_assoc, hloop hv hnext hlt, ih, Trace.after_after,
      List.append_assoc]
    rfl

section Following

variable {outputs : List Value} {rest next v : Value}

theorem manyFrom_apply_of_consumes (hv : p rest made = ⟨events, made', .ok (.success next v)⟩)
    (hnext : next.comparable rest = pure ()) (hlt : next.size < rest.size) :
    manyFrom onStall p outputs rest made =
      (manyFrom onStall p (outputs ++ [v]) next made').after events := by
  rw [manyFrom, bind_apply_ok hv]
  simp only [Value.isTrue_success, Value.rest_success, pure_bind, hnext, if_pos hlt,
    Value.output_success]
  rfl

theorem manyFrom_apply_of_failure {e : Value}
    (h : p input made = ⟨events, made', .ok (.failure rest e)⟩) :
    manyFrom onStall p outputs input made =
      ⟨events, made', .ok (.success rest (.list outputs))⟩ := by
  rw [manyFrom, bind_apply_ok h]
  simp [accept, pure_apply]

theorem atLeastFrom_apply_of_consumes {count : Nat}
    (hv : p rest made = ⟨events, made', .ok (.success next v)⟩)
    (hnext : next.comparable rest = pure ()) (hlt : next.size < rest.size) :
    atLeastFrom count error p outputs rest made =
      (atLeastFrom count error p (outputs ++ [v]) next made').after events := by
  have hmore : ¬ (rest.size ≤ next.size ∧ count ≤ outputs.length) := by omega
  rw [atLeastFrom, bind_apply_ok hv]
  simp only [Value.isTrue_success, Value.rest_success, pure_bind, hnext, if_neg hmore,
    Value.output_success]
  rfl

theorem atMostFrom_apply_of_consumes {allowed : Nat}
    (hv : p rest made = ⟨events, made', .ok (.success next v)⟩)
    (hnext : next.comparable rest = pure ()) (hlt : next.size < rest.size) :
    atMostFrom p (allowed + 1) outputs rest made =
      (atMostFrom p allowed (outputs ++ [v]) next made').after events := by
  rw [atMostFrom, bind_apply_ok hv]
  simp only [Value.isTrue_success, Value.rest_success, pure_bind, hnext, if_pos hlt,
    Value.output_success]
  rfl

theorem exactlyFrom_apply_of_success {missing : Nat}
    (hv : p rest made = ⟨events, made', .ok (.success next v)⟩) :
    exactlyFrom error p (missing + 1) outputs rest made =
      (exactlyFrom error p missing (outputs ++ [v]) next made').after events := by
  rw [exactlyFrom, bind_apply_ok hv]
  simp only [Value.isTrue_success, Value.rest_success, pure_bind, Value.output_success]
  rfl

end Following

/-- Where there is no match that consumes something, the repetitions that need no
more outputs stop alike. -/
structure StopsAt (p : Rule) (last : Value) (middle : Nat) (more : List Event) (made' : Nat)
    (rest : Value) : Prop where
  many : ∀ outputs, manyFrom (fun _ => pure ()) p outputs last middle =
    ⟨more, made', .ok (.success rest (.list outputs))⟩
  atMost : ∀ allowed outputs, atMostFrom p (allowed + 1) outputs last middle =
    ⟨more, made', .ok (.success rest (.list outputs))⟩

theorem stopsAt_of_failure {rest e : Value}
    (h : p last middle = ⟨events, made', .ok (.failure rest e)⟩) :
    p.StopsAt last middle events made' rest where
  many outputs := manyFrom_apply_of_failure h
  atMost allowed outputs := by
    rw [atMostFrom, bind_apply_ok h]
    simp [accept, pure_apply]

theorem stopsAt_of_stall {next v : Value}
    (h : p last middle = ⟨events, made', .ok (.success next v)⟩)
    (hnext : next.comparable last = pure ()) (hstall : ¬ next.size < last.size) :
    p.StopsAt last middle events made' last where
  many outputs := by
    rw [manyFrom, bind_apply_ok h]
    simp [hnext, hstall, accept, pure_apply]
  atMost allowed outputs := by
    rw [atMostFrom, bind_apply_ok h]
    simp [hnext, hstall, accept, pure_apply]

/-- A repetition that replies has made a row of matches that consume something and
stopped after them. -/
theorem exists_trail_of_manyFrom {reply : Value} (n : Nat) : ∀ {input : Value} {made : Nat}
    {outputs : List Value}, input.size = n →
    (manyFrom (fun _ => pure ()) p outputs input made).result = .ok reply →
    ∃ calls vs last middle more made' rest, Trail p input made calls vs last middle ∧
      p.StopsAt last middle more made' rest := by
  induction n using Nat.strongRecOn with
  | ind n ih =>
    intro input made outputs hn h
    rw [manyFrom] at h
    rcases hr : p input made with ⟨events, middle, e | r⟩
    · rw [bind_apply_error hr] at h
      cases h
    rw [bind_apply_ok hr] at h
    by_cases htrue : r.isTrue = true
    · simp only [if_pos htrue] at h
      have hreturns : Run.Returns _ _ := ⟨middle, h⟩
      obtain ⟨next, hnext, hreturns⟩ := hreturns.of_bind
      obtain ⟨v, rfl⟩ := Value.eq_success_of_rest htrue hnext
      obtain ⟨_, hkinds, -⟩ := hreturns.of_bind
      have hnext := Value.comparable_of_returns hkinds
      by_cases hlt : next.size < input.size
      · simp only [Value.rest_success, pure_bind, hnext, if_pos hlt, Value.output_success] at h
        obtain ⟨calls, vs, last, mid, more, made', rest, htrail, hstops⟩ :=
          ih next.size (hn ▸ hlt) rfl h
        exact ⟨_, _, last, mid, more, made', rest, .cons hr hnext hlt htrail, hstops⟩
      · exact ⟨_, _, _, _, _, _, _, .nil input made, stopsAt_of_stall hr hnext hlt⟩
    · simp only [if_neg htrue] at h
      have hreturns : Run.Returns _ _ := ⟨middle, h⟩
      obtain ⟨next, hnext, -⟩ := hreturns.of_bind
      obtain ⟨e, rfl⟩ := Value.eq_failure_of_rest (Bool.eq_false_iff.mpr htrue) hnext
      exact ⟨_, _, _, _, _, _, _, .nil input made, stopsAt_of_failure hr⟩

theorem Trail.manyFrom (h : Trail p input made calls vs last middle) (outputs : List Value) :
    Rule.manyFrom onStall p outputs input made =
      (Rule.manyFrom onStall p (outputs ++ vs) last middle).after calls :=
  h.follow (fun _ => Rule.manyFrom onStall p) manyFrom_apply_of_consumes 0 outputs

/-- So many matches as there are in a row are counted. -/
theorem Trail.exactly (h : Trail p input made calls vs last middle) (error : Value) :
    p.exactly vs.length error input made = ⟨calls, middle, .ok (.success last (.list vs))⟩ := by
  have hfollow := h.follow (exactlyFrom error p)
    (fun hv _ _ => exactlyFrom_apply_of_success hv) 0 []
  rw [Nat.zero_add, exactlyFrom] at hfollow
  rw [Rule.exactly, hfollow, accept, pure_apply, Trace.after, List.append_nil]
  rfl

theorem Trail.atMost (h : Trail p input made calls vs last middle) :
    p.atMost vs.length input made = ⟨calls, middle, .ok (.success last (.list vs))⟩ := by
  have hfollow := h.follow (atMostFrom p) atMostFrom_apply_of_consumes 0 []
  rw [Nat.zero_add, atMostFrom] at hfollow
  rw [Rule.atMost, hfollow, accept, pure_apply, Trace.after, List.append_nil]
  rfl

/-- What the loops with a count do where the one without has matched `vs`. -/
theorem counted_of_trail {more : List Event} {rest : Value} (count : Nat) (error : Value)
    (htrail : Trail p input made calls vs last middle)
    (hstops : p.StopsAt last middle more made' rest) :
    p.manyQuietly input made = ⟨calls ++ more, made', .ok (.success rest (.list vs))⟩ ∧
    (vs.length < count → p.atMost count input made = p.manyQuietly input made) ∧
    (count ≤ vs.length → p.atLeast count error input made = p.manyQuietly input made) := by
  have hmany : p.manyQuietly input made = _ := htrail.manyFrom []
  rw [List.nil_append, hstops.many] at hmany
  refine ⟨hmany, fun hlt => ?_, fun hle => ?_⟩
  · obtain ⟨allowed, rfl⟩ : ∃ allowed, count = allowed + 1 + vs.length :=
      ⟨count - vs.length - 1, by omega⟩
    have hfollow := htrail.follow (atMostFrom p) atMostFrom_apply_of_consumes (allowed + 1) []
    rw [List.nil_append, hstops.atMost] at hfollow
    rw [hmany]
    exact hfollow
  · have hfollow := htrail.follow (fun _ => atLeastFrom count error p)
      atLeastFrom_apply_of_consumes 0 []
    rw [List.nil_append, atLeastFrom_eq_manyFrom _ vs last rfl hle, hstops.many] at hfollow
    rw [hmany]
    exact hfollow

end Trail

/-- Counted repetitions do the same as the one without a count, but for the line
that the latter logs where it stalls. A lower bound asks for so many matches and
then takes as many as there are. Where there are `vs` in all, an upper bound above
their number changes nothing and neither does a lower bound up to it; an upper bound
up to it asks for exactly so many, which are the first of `vs`. The rule may tell of
its calls, so these are the same as well. -/
theorem counted_repetitions_agree (hp : p.KeepsSequences) {input : Value}
    (hinput : input.isSequence = true) (count : Nat) (error : Value) (line : Nat → Text)
    (made : Nat) :
    (p.atLeast count error input made).LogsMore
        (p.exactlyThenMany (fun left => Run.log (line left)) count error input made) ∧
    (p.atLeast 0 error input made).LogsMore
        (p.many (fun left => Run.log (line left)) input made) ∧
    ∀ events made' rest vs, p.many (fun left => Run.log (line left)) input made =
        ⟨events, made', .ok (.success rest (.list vs))⟩ →
      (vs.length < count → (p.atMost count input made).LogsMore
        (p.many (fun left => Run.log (line left)) input made)) ∧
      (count ≤ vs.length →
        (p.atLeast count error input made).LogsMore
          (p.many (fun left => Run.log (line left)) input made) ∧
        p.atMost count input made = p.exactly count error input made ∧
        ∃ calls more mid middle, events = calls ++ more ∧
          Trail p input made calls (vs.take count) mid middle ∧
          p.exactly count error input made =
            ⟨calls, middle, .ok (.success mid (.list (vs.take count)))⟩) := by
  refine ⟨?_, ?_, fun events made' rest vs hmany => ?_⟩
  · rw [atLeast_eq_exactlyThenMany hp hinput]
    exact logsMore_exactlyThenMany p line count error input made
  · rw [atLeast_zero]
    exact logsMore_many p line input made
  · have hlogs := logsMore_many p line input made
    have hresult : (p.manyQuietly input made).result = .ok (.success rest (.list vs)) := by
      rw [← hlogs.result, hmany]
    obtain ⟨calls, ws, last, middle, more, made'', rest', htrail, hstops⟩ :=
      exists_trail_of_manyFrom _ rfl hresult
    obtain ⟨hquiet, hfew, henough⟩ := counted_of_trail count error htrail hstops
    have hvs : ws = vs := by
      rw [hquiet] at hresult
      exact Value.list.inj (Value.success.inj (Except.ok.inj hresult)).2
    subst hvs
    refine ⟨fun hlt => (hfew hlt).symm ▸ hlogs, fun hle => ⟨(henough hle).symm ▸ hlogs, ?_⟩⟩
    obtain ⟨first, second, between, mid, rfl, hfirst, -⟩ := htrail.split hle
    have hlength : (ws.take count).length = count := List.length_take_of_le hle
    have hexactly := hfirst.exactly error
    have hatMost := hfirst.atMost
    rw [hlength] at hexactly hatMost
    obtain ⟨⟨line?, hevents⟩, -, -⟩ := hlogs
    rw [hmany, hquiet, List.append_assoc, List.append_assoc] at hevents
    exact ⟨hatMost.trans hexactly.symm, first, _, mid, between, hevents, hfirst, hexactly⟩

/-- After two digits the third match consumes nothing. It is dropped and logged by
`many`, dropped by a lower bound of two, and not tried by an upper bound of two. -/
theorem counted_repetitions_agree_stall :
    digit.maybe.KeepsSequences ∧ (Value.text "12x").isSequence = true ∧
      digit.maybe.many (fun _ => Run.log "stalled") (.text "12x") 0 =
        ⟨[.log "stalled"], 0, .ok (.success (.text "x") (.list [.text "1", .text "2"]))⟩ ∧
      (digit.maybe.atLeast 2 .none (.text "12x") 0).LogsMore
        (digit.maybe.many (fun _ => Run.log "stalled") (.text "12x") 0) ∧
      digit.maybe.atMost 2 (.text "12x") 0 = digit.maybe.exactly 2 .none (.text "12x") 0 := by
  have hfits : (Logic.single True).Fits (Scope.suffixes .sequences)
      (.of (fun _ => True) fun _ => False) fun _ => digit.maybe :=
    Logic.Fits.optional (Logic.fits_characterOf _ _)
  have hinput : (Value.text "12x").isSequence = true := rfl
  have hone : digit.maybe (.text "12x") 0 =
      ⟨[], 0, .ok (.success (.text "2x") (.text "1"))⟩ := rfl
  have htwo : digit.maybe (.text "2x") 0 = ⟨[], 0, .ok (.success (.text "x") (.text "2"))⟩ := rfl
  have hnone : digit.maybe (.text "x") 0 = ⟨[], 0, .ok (.success (.text "x") .none)⟩ := rfl
  have hmany : digit.maybe.many (fun _ => Run.log "stalled") (.text "12x") 0 =
      ⟨[.log "stalled"], 0, .ok (.success (.text "x") (.list [.text "1", .text "2"]))⟩ := by
    rw [many, manyFrom_apply_of_consumes hone rfl (by decide),
      manyFrom_apply_of_consumes htwo rfl (by decide), manyFrom, bind_apply_ok hnone]
    rfl
  obtain ⟨-, -, hbounds⟩ :=
    counted_repetitions_agree hfits.keepsSequences hinput 2 .none (fun _ => "stalled") 0
  obtain ⟨hatLeast, hatMost, -⟩ := (hbounds _ _ _ _ hmany).2 (by decide)
  exact ⟨hfits.keepsSequences, hinput, hmany, hatLeast, hatMost⟩

end Rule

end ParserCombinators
