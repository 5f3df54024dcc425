import ParserCombinators.Proofs.Lexical
import ParserCombinators.Proofs.Rule.Stall
import ParserCombinators.Proofs.Rule.Success
import ParserCombinators.Proofs.Silent

/-!
Separated lists and operator chains. After the first item all of them make the
same scan: a separator and an item after it, again and again as long as the two
match and consume something together. They differ only in what they make of
the outputs.
-/

namespace ParserCombinators

open Run

/-- On a sequence the rule replies with an outcome that leaves a sequence. -/
def Rule.KeepsSequences (p : Rule) : Prop :=
  ∀ input r, input.isSequence = true → (p input).Returns r →
    ∃ rest, rest.isSequence = true ∧ ((∃ v, r = .success rest v) ∨ ∃ e, r = .failure rest e)

theorem Run.Logic.Fits.keepsSequences {A B : Value → Prop} {p : Rule}
    (hp : (Logic.single True).Fits (Scope.suffixes .sequences) (.of A B) fun _ => p) :
    p.KeepsSequences := by
  intro input r hinput hreturns
  obtain ⟨made, hr⟩ := hreturns
  have hmem : ∀ n, (input.dropFirst n).isSequence = true := fun n => by
    rw [Value.isSequence_dropFirst, hinput]
  have hreply := (hp (fun _ => input) ⟨input, hinput, rfl⟩ made).2 r hr
  generalize hfamily : (fun _ : Unit => r) = family at hreply
  obtain ⟨⟨n, rfl⟩, -⟩ | ⟨⟨n, rfl⟩, -⟩ | ⟨⟨_, hfalse, -⟩, -⟩ := hreply
  · exact ⟨_, hmem n, .inl ⟨_, congrFun hfamily ()⟩⟩
  · exact ⟨_, hmem n, .inr ⟨_, congrFun hfamily ()⟩⟩
  · exact hfalse.elim

namespace Rule

variable {p s : Rule} {rest next : Value}

/-- The rounds of a separator and an item after it that match and consume
something together: their outputs, and what is left after the last one. -/
def roundsFrom (p s : Rule) (rest : Value) : Run (List (Value × Value) × Value) := do
  let r ← s.seq p rest
  match r with
  | .success next (.tuple [f, v]) =>
    if next.size < rest.size then do
      let (rounds, last) ← roundsFrom p s next
      pure ((f, v) :: rounds, last)
    else pure ([], rest)
  | _ => pure ([], rest)
termination_by rest.size

section Round

variable {β : Type}

/-- Goes on after a round that leaves less than there was, and stops where there
is none. -/
def afterRound (size : Nat) (more : Value → Value → Value → Run β) (stop : Run β) :
    Value → Run β
  | .success next (.tuple [f, v]) => if next.size < size then more f v next else stop
  | _ => stop

theorem roundsFrom_eq (p s : Rule) (rest : Value) :
    roundsFrom p s rest = s.seq p rest >>= afterRound rest.size
      (fun f v next => do
        let x ← roundsFrom p s next
        pure ((f, v) :: x.1, x.2)) (pure ([], rest)) := by
  rw [roundsFrom]
  rfl

theorem comparable_of_isSequence (hnext : next.isSequence = true) (hrest : rest.isSequence = true) :
    next.comparable rest = pure () := by
  rw [Value.comparable, hnext, hrest]
  rfl

/-- Whatever the loops do with a round, they look at it in the same way. -/
theorem round_eq (hp : p.KeepsSequences) (hs : s.KeepsSequences) (hrest : rest.isSequence = true)
    {k : Value → Value → Value → Run β} {more : Value → Value → Value → Run β} {stop : Run β}
    (hk : ∀ middle next f v, k (.success middle f) (.success next v) next = more f v next) :
    (do
      let a ← s rest
      if a.isTrue then
        let middle ← a.rest
        let b ← p middle
        if b.isTrue then
          let next ← b.rest
          next.comparable rest
          if next.size < rest.size then k a b next else stop
        else stop
      else stop) = s.seq p rest >>= afterRound rest.size more stop := by
  rw [seq, bind_assoc]
  refine bind_congr_of_returns fun a ha => ?_
  obtain ⟨middle, hmiddle, ⟨f, rfl⟩ | ⟨e, rfl⟩⟩ := hs rest a hrest ha
  · simp only [Value.isTrue_success, if_true, Value.rest_success, pure_bind, bind_assoc]
    refine bind_congr_of_returns fun b hb => ?_
    obtain ⟨next, hnext, ⟨v, rfl⟩ | ⟨e, rfl⟩⟩ := hp middle b hmiddle hb
    · simp only [Value.isTrue_success, if_true, Value.rest_success, pure_bind,
        comparable_of_isSequence hnext hrest, Value.output_success, accept, afterRound, hk]
    · simp only [Value.isTrue_failure, Bool.false_eq_true, if_false, Value.rest_failure,
        Value.error_failure, pure_bind, reject, afterRound]
  · simp only [Value.isTrue_failure, Bool.false_eq_true, if_false, Value.rest_failure,
      Value.error_failure, pure_bind, reject, afterRound]

/-- The replies of a separator and an item after it. -/
theorem returns_seq_cases (hp : p.KeepsSequences) (hs : s.KeepsSequences)
    (hrest : rest.isSequence = true) {r : Value} (h : (s.seq p rest).Returns r) :
    (∃ next f v, next.isSequence = true ∧ r = .success next (.tuple [f, v])) ∨
      ∃ next e, r = .failure next e := by
  obtain ⟨a, ha, h⟩ := h.of_bind
  obtain ⟨middle, hmiddle, ⟨f, rfl⟩ | ⟨e, rfl⟩⟩ := hs rest a hrest ha
  · simp only [Value.isTrue_success, if_true, Value.rest_success, pure_bind] at h
    obtain ⟨b, hb, h⟩ := h.of_bind
    obtain ⟨next, hnext, ⟨v, rfl⟩ | ⟨e, rfl⟩⟩ := hp middle b hmiddle hb
    · exact .inl ⟨next, f, v, hnext, returns_accept.mp h⟩
    · exact .inr ⟨next, .branch .right e, returns_reject.mp h⟩
  · exact .inr ⟨middle, .branch .left e, returns_reject.mp h⟩

/-- Loops that go on alike after a round that consumes something are alike. -/
theorem afterRound_congr (hp : p.KeepsSequences) (hs : s.KeepsSequences)
    (hrest : rest.isSequence = true) {more more' : Value → Value → Value → Run β} {stop : Run β}
    (h : ∀ f v next, next.isSequence = true → next.size < rest.size →
      more f v next = more' f v next) :
    s.seq p rest >>= afterRound rest.size more stop =
      s.seq p rest >>= afterRound rest.size more' stop := by
  refine bind_congr_of_returns fun r hr => ?_
  obtain ⟨next, f, v, hnext, rfl⟩ | ⟨next, e, rfl⟩ := returns_seq_cases hp hs hrest hr
  · by_cases hlt : next.size < rest.size
    · simp only [afterRound, if_pos hlt, h f v next hnext hlt]
    · simp only [afterRound, if_neg hlt]
  · rfl

theorem afterRound_bind {γ : Type} (size : Nat) (more : Value → Value → Value → Run β)
    (stop : Run β) (f : β → Run γ) (r : Value) :
    afterRound size more stop r >>= f =
      afterRound size (fun g v next => more g v next >>= f) (stop >>= f) r := by
  unfold afterRound
  split
  · split <;> rfl
  · rfl

/-- A loop whose body is a round and that makes of the rounds what `finish` does. -/
theorem eq_roundsFrom (hp : p.KeepsSequences) (hs : s.KeepsSequences) {α : Type}
    (loop : α → Value → Run β) (step : α → Value → Value → α)
    (finish : α → List (Value × Value) → Value → Run β)
    (hloop : ∀ a rest, rest.isSequence = true → loop a rest =
      s.seq p rest >>= afterRound rest.size (fun f v next => loop (step a f v) next)
        (finish a [] rest))
    (hfinish : ∀ a f v rounds last, finish (step a f v) rounds last =
      finish a ((f, v) :: rounds) last) (n : Nat) :
    ∀ a rest, rest.isSequence = true → rest.size = n →
      loop a rest = roundsFrom p s rest >>= fun x => finish a x.1 x.2 := by
  induction n using Nat.strongRecOn with
  | ind n ih =>
    intro a rest hrest hn
    rw [hloop a rest hrest, roundsFrom_eq, bind_assoc]
    simp only [afterRound_bind, bind_assoc, pure_bind]
    refine afterRound_congr hp hs hrest fun f v next hnext hlt => ?_
    rw [ih next.size (hn ▸ hlt) (step a f v) next hnext rfl]
    simp only [hfinish]

theorem separatedFrom_eq (hp : p.KeepsSequences) (hs : s.KeepsSequences)
    (hrest : rest.isSequence = true) (outputs : List Value) :
    separatedFrom p s outputs rest =
      roundsFrom p s rest >>= fun x => pure (x.2, outputs ++ x.1.map Prod.snd) := by
  refine eq_roundsFrom hp hs (separatedFrom p s) (fun outputs _ v => outputs ++ [v])
    (fun outputs rounds last => pure (last, outputs ++ rounds.map Prod.snd))
    (fun outputs rest hrest => ?_) (fun outputs f v rounds last => ?_) _ outputs rest hrest rfl
  · rw [separatedFrom, List.map_nil, List.append_nil]
    exact round_eq hp hs hrest fun _ _ _ _ => by rw [Value.output_success, pure_bind]
  · rw [List.map_cons, List.append_assoc, List.singleton_append]

/-- The pair of a separator and an item, of which the item's output is kept and
which fails where it began. -/
def separatedItem (p s : Rule) : Rule := (s.seq p).second.backtrack

/-- A repetition of separators with items after them makes the scan of a
separated list. -/
theorem manyQuietly_separatedItem (hp : p.KeepsSequences) (hs : s.KeepsSequences)
    (hrest : rest.isSequence = true) (outputs : List Value) :
    manyFrom (fun _ => pure ()) (separatedItem p s) outputs rest =
      roundsFrom p s rest >>= fun x => accept x.2 (.list (outputs ++ x.1.map Prod.snd)) := by
  refine eq_roundsFrom hp hs (manyFrom (fun _ => pure ()) (separatedItem p s))
    (fun outputs _ v => outputs ++ [v])
    (fun outputs rounds last => accept last (.list (outputs ++ rounds.map Prod.snd)))
    (fun outputs rest hrest => ?_) (fun outputs f v rounds last => ?_) _ outputs rest hrest rfl
  · rw [manyFrom, List.map_nil, List.append_nil, separatedItem, backtrack, second, map]
    simp only [bind_assoc]
    refine bind_congr_of_returns fun r hr => ?_
    obtain ⟨next, f, v, hnext, rfl⟩ | ⟨next, e, rfl⟩ := returns_seq_cases hp hs hrest hr
    · simp only [Value.isTrue_success, if_true, Value.rest_success, Value.output_success,
        Value.item_one_pair, accept, pure_bind, comparable_of_isSequence hnext hrest, afterRound]
    · simp only [Value.isTrue_failure, Bool.false_eq_true, if_false, Value.error_failure,
        Value.rest_failure, reject, pure_bind, afterRound]
  · rw [List.map_cons, List.append_assoc, List.singleton_append]

/-- Every term of a chain with the operator after it, and the last term. -/
def linksOf (term : Value) : List (Value × Value) → List (Value × Value) × Value
  | [] => ([], term)
  | (f, v) :: rounds => ((term, f) :: (linksOf v rounds).1, (linksOf v rounds).2)

theorem chainRightFrom_eq (hp : p.KeepsSequences) (hs : s.KeepsSequences)
    (hrest : rest.isSequence = true) (term : Value) :
    chainRightFrom p s [] term rest =
      roundsFrom p s rest >>= fun x => pure (x.2, linksOf term x.1) := by
  have hrounds := eq_roundsFrom hp hs (fun a rest => chainRightFrom p s a.1 a.2 rest)
    (fun a f v => (a.1 ++ [(a.2, f)], v))
    (fun a rounds last => pure (last, a.1 ++ (linksOf a.2 rounds).1, (linksOf a.2 rounds).2))
    (fun a rest hrest => ?_) (fun a f v rounds last => ?_) _ ([], term) rest hrest rfl
  · exact hrounds
  · rw [chainRightFrom]
    simp only [linksOf, List.append_nil]
    refine round_eq hp hs hrest fun _ _ _ _ => ?_
    simp only [Value.output_success, pure_bind]
  · simp only [linksOf, List.append_assoc, List.singleton_append]

end Round

section Combine

variable {invoke : Value → List Value → Run Value}

/-- The terms of a chain combined from the left: the first one, and after each
operator the next one. -/
def foldLeft (invoke : Value → List Value → Run Value) (term : Value) :
    List (Value × Value) → Run Value
  | [] => pure term
  | (f, v) :: rounds => do
    let w ← invoke f [term, v]
    foldLeft invoke w rounds

/-- The terms of a chain combined from the right. -/
def foldRight (invoke : Value → List Value → Run Value) (term : Value) :
    List (Value × Value) → Run Value
  | [] => pure term
  | (f, v) :: rounds => do
    let w ← foldRight invoke v rounds
    invoke f [term, w]

theorem combineRight_linksOf (rounds : List (Value × Value)) (term : Value) :
    combineRight invoke (linksOf term rounds).2 (linksOf term rounds).1 =
      foldRight invoke term rounds := by
  induction rounds generalizing term with
  | nil => rfl
  | cons round rounds ih => simp only [linksOf, combineRight, foldRight, ih]

/-- The loop to the left calls the same rules as the scan, as long as no operator
ends the run. -/
theorem chainLeftFrom_eq (hp : p.KeepsSequences) (hs : s.KeepsSequences)
    (hinvoke : ∀ f v w, (invoke f [v, w]).Silent) {last w : Value} {made' : Nat} (n : Nat) :
    ∀ (result rest : Value) (made : Nat) (events : List Event) (rounds : List (Value × Value)),
      rest.isSequence = true → rest.size = n →
      roundsFrom p s rest made = ⟨events, made', .ok (rounds, last)⟩ →
      (foldLeft invoke result rounds).Returns w →
      chainLeftFrom invoke p s result rest made = ⟨events, made', .ok (.success last w)⟩ := by
  induction n using Nat.strongRecOn with
  | ind n ih =>
    intro result rest made events rounds hrest hn hrounds hw
    have hloop : chainLeftFrom invoke p s result rest = s.seq p rest >>= afterRound rest.size
        (fun f v next => invoke f [result, v] >>= fun w => chainLeftFrom invoke p s w next)
        (accept rest result) := by
      rw [chainLeftFrom]
      exact round_eq hp hs hrest fun _ _ _ _ => by
        rw [Value.output_success, Value.output_success, pure_bind, pure_bind]
    rw [roundsFrom_eq] at hrounds
    obtain ⟨first, middle, r, second, hr, hmore, rfl⟩ := eq_ok_of_bind hrounds
    rw [hloop, bind_apply_ok hr]
    -- Where there is no further round the scan and the chain stop at once.
    have hstop : (pure ([], rest) : Run (List (Value × Value) × Value)) middle =
        ⟨second, made', .ok (rounds, last)⟩ →
        accept rest result middle = ⟨second, made', .ok (.success last w)⟩ := by
      intro hend
      cases hend
      rw [returns_pure.mp hw]
      rfl
    have hfinish : ∀ {k : Run Value}, k middle = ⟨second, made', .ok (.success last w)⟩ →
        (⟨first ++ (k middle).events, (k middle).made, (k middle).result⟩ : Trace Value) =
          ⟨first ++ second, made', .ok (.success last w)⟩ := by
      intro k hk
      rw [hk]
    obtain ⟨next, f, v, hnext, rfl⟩ | ⟨next, e, rfl⟩ :=
      returns_seq_cases hp hs hrest ⟨made, by rw [hr]⟩
    · by_cases hlt : next.size < rest.size
      · simp only [afterRound, if_pos hlt] at hmore ⊢
        obtain ⟨calls, _, x, tail, hx, hpure, rfl⟩ := eq_ok_of_bind hmore
        cases hpure
        obtain ⟨combined, hcombined, hw⟩ := hw.of_bind
        rw [(hinvoke f result v).eq_pure hcombined, pure_bind]
        refine hfinish ?_
        rw [List.append_nil]
        exact ih next.size (hn ▸ hlt) combined next middle calls x.1 hnext rfl hx hw
      · simp only [afterRound, if_neg hlt] at hmore ⊢
        exact hfinish (hstop hmore)
    · exact hfinish (hstop hmore)

theorem silent_foldRight (hinvoke : ∀ f v w, (invoke f [v, w]).Silent)
    (rounds : List (Value × Value)) (term : Value) : (foldRight invoke term rounds).Silent := by
  induction rounds generalizing term with
  | nil => exact silent_pure term
  | cons round rounds ih => exact (ih round.2).bind fun w => hinvoke round.1 term w

end Combine

section Scan

/-- Rounds of a separator and an item after it, each of which consumes something. -/
inductive Rounds (p s : Rule) : Value → List (Value × Value) → Value → Prop
  | nil (rest : Value) : Rounds p s rest [] rest
  | cons {rest middle next last f v : Value} {rounds : List (Value × Value)}
      (hf : (s rest).Returns (.success middle f)) (hv : (p middle).Returns (.success next v))
      (hlt : next.size < rest.size) (hrounds : Rounds p s next rounds last) :
      Rounds p s rest ((f, v) :: rounds) last

/-- Whatever the scan consumes it consumes by a separator together with an item. -/
theorem rounds_of_roundsFrom (n : Nat) : ∀ {rest last : Value} {rounds : List (Value × Value)},
    rest.size = n → (roundsFrom p s rest).Returns (rounds, last) →
    Rounds p s rest rounds last := by
  induction n using Nat.strongRecOn with
  | ind n ih =>
    intro rest last rounds hn h
    rw [roundsFrom] at h
    obtain ⟨r, hr, h⟩ := h.of_bind
    have hstop : (pure ([], rest) : Run (List (Value × Value) × Value)).Returns (rounds, last) →
        Rounds p s rest rounds last := by
      intro hend
      cases returns_pure.mp hend
      exact .nil rest
    split at h
    · rename_i next f v
      split at h
      · rename_i hlt
        obtain ⟨x, hx, h⟩ := h.of_bind
        cases returns_pure.mp h
        obtain ⟨middle, _, _, hf, hv, heq⟩ := returns_seq hr
        cases heq
        exact .cons hf hv hlt (ih next.size (hn ▸ hlt) rfl hx)
      · exact hstop h
    · exact hstop h

variable {input error t e : Value} {made made' : Nat} {events : List Event}
  {call : Grammar → Rule}

/-- What comes after a reply that is a success. -/
theorem bind_success {β : Type} (h : p input made = ⟨events, made', .ok (.success next t)⟩)
    (f g : Value → Run β) :
    (p input >>= fun r => if r.isTrue then f r else g r) made =
      ⟨events ++ (f (.success next t) made').events, (f (.success next t) made').made,
        (f (.success next t) made').result⟩ :=
  bind_apply_ok h _

theorem bind_failure {β : Type} (h : p input made = ⟨events, made', .ok (.failure rest e)⟩)
    (f g : Value → Run β) :
    (p input >>= fun r => if r.isTrue then f r else g r) made =
      ⟨events ++ (g (.failure rest e) made').events, (g (.failure rest e) made').made,
        (g (.failure rest e) made').result⟩ :=
  bind_apply_ok h _

theorem sepBy1_of_success (hp : p.KeepsSequences) (hs : s.KeepsSequences)
    (hnext : next.isSequence = true)
    (h : p input made = ⟨events, made', .ok (.success next t)⟩) :
    sepBy1 error p s input made =
      ⟨events ++ (roundsFrom p s next made').events, (roundsFrom p s next made').made,
        (roundsFrom p s next made').result.map fun x =>
          .success x.2 (.list (t :: x.1.map Prod.snd))⟩ := by
  have hscan : ((fun x => Value.success x.2 (.list (t :: x.1.map Prod.snd))) <$>
      roundsFrom p s next) made' = _ := map_apply _ _ made'
  rw [map_eq_pure_bind] at hscan
  rw [sepBy1, bind_success h]
  simp only [Value.rest_success, Value.output_success, pure_bind, separatedFrom_eq hp hs hnext,
    bind_assoc, accept, List.singleton_append, hscan]

theorem sepBy_of_success (h : p input made = ⟨events, made', .ok (.success next t)⟩) :
    p.sepBy s input made = sepBy1 error p s input made := by
  rw [sepBy, sepBy1, bind_success h, bind_success h]

theorem chainLeft_of_success (hp : p.KeepsSequences) (hs : s.KeepsSequences)
    (hnext : next.isSequence = true) {calls : List Event} {made'' : Nat}
    {rounds : List (Value × Value)} {last w : Value}
    (h : p input made = ⟨events, made', .ok (.success next t)⟩)
    (hscan : roundsFrom p s next made' = ⟨calls, made'', .ok (rounds, last)⟩)
    (hw : (foldLeft (Value.invoke call) t rounds).Returns w) :
    chainLeft (Value.invoke call) p s input made =
      ⟨events ++ calls, made'', .ok (.success last w)⟩ := by
  rw [chainLeft, bind_success h]
  simp only [Value.rest_success, Value.output_success, pure_bind]
  rw [chainLeftFrom_eq hp hs (Value.silent_invoke_pair call) _ t next made' calls rounds hnext rfl
    hscan hw]

theorem chainRight_of_success (hp : p.KeepsSequences) (hs : s.KeepsSequences)
    (hnext : next.isSequence = true) {calls : List Event} {made'' : Nat}
    {rounds : List (Value × Value)} {last w : Value}
    (h : p input made = ⟨events, made', .ok (.success next t)⟩)
    (hscan : roundsFrom p s next made' = ⟨calls, made'', .ok (rounds, last)⟩)
    (hw : (foldRight (Value.invoke call) t rounds).Returns w) :
    chainRight (Value.invoke call) p s input made =
      ⟨events ++ calls, made'', .ok (.success last w)⟩ := by
  have hfold := (silent_foldRight (Value.silent_invoke_pair call) rounds t).eq_pure hw
  rw [chainRight, bind_success h]
  simp only [Value.rest_success, Value.output_success, pure_bind, chainRightFrom_eq hp hs hnext,
    bind_assoc]
  rw [bind_apply_ok hscan]
  simp only [combineRight_linksOf, hfold, pure_bind, accept, pure_apply, List.append_nil]

theorem many_separatedItem (hp : p.KeepsSequences) (hs : s.KeepsSequences)
    (hnext : next.isSequence = true) (line : Nat → Text) (made : Nat) :
    Trace.LogsMore ⟨(roundsFrom p s next made).events, (roundsFrom p s next made).made,
        (roundsFrom p s next made).result.map fun x =>
          .success x.2 (.list (x.1.map Prod.snd))⟩
      ((separatedItem p s).many (fun left => Run.log (line left)) next made) := by
  have hquiet := logsMore_many (separatedItem p s) line next made
  have hscan : ((fun x => Value.success x.2 (.list (x.1.map Prod.snd))) <$>
      roundsFrom p s next) made = _ := map_apply _ _ made
  rw [manyQuietly, many, manyQuietly_separatedItem hp hs hnext] at hquiet
  rw [← hscan, map_eq_pure_bind]
  exact hquiet

/-- A digit, and a sign that outputs the function which adds. -/
def digit : Rule := characterOf CharacterSet.decimal "Expected a digit."

def plusSign : Rule :=
  (character (.ofChar '+') "Expected a plus.").map fun _ => pure (.function 0 .plus)

end Scan

end Rule

end ParserCombinators
