import ParserCombinators.Proofs.Depth

/-!
Recursion that is guarded ends. A recursion is guarded if between its binder and
every use of it something is consumed: the use lies in the second part of a
sequence whose first part cannot succeed on nothing. The argument goes down the
length of what is left, and for one length along the tree: a recursion whose
guard is passed may be called at the same length, also from inside another one,
and a recursion whose guard is pending only later.
-/

namespace ParserCombinators

open Run Run.Logic

namespace Grammar

/-- The grammar cannot succeed on a sequence without consuming an element. -/
def Consumes (g : Grammar) : Prop :=
  ∀ depth input rest v, input.isSequence = true →
    (g.run depth input).Returns (.success rest v) → rest.size < input.size

end Grammar

/-- A value that ends when it is applied, also if it is a parser. -/
def Value.IsTotal (f : Value) : Prop :=
  ∀ identity g, f = .parser identity g → ∀ input made, ∃ t, g.Ends input made t

namespace Grammar

/-- Recursions that a grammar is inside of, by name and body. -/
abbrev Recursions := List (Text × Grammar)

/-- What the first part of a sequence does to the guards: if it consumes, all
pending recursions are ready after it. -/
inductive Guards (ready pending : Recursions) (g : Grammar) : Recursions → Recursions → Prop
  | nothing : Guards ready pending g ready pending
  | consumed (h : g.Consumes) : Guards ready pending g (pending ++ ready) []

/-- Every use of a recursion in the grammar is guarded. The recursions in
`ready` may be used at once, those in `pending` only after something has been
consumed. Opening a recursion puts it in the place of its name and makes it
pending. -/
inductive Guarded : Recursions → Recursions → Grammar → Prop
  | leaf {ready pending : Recursions} {l : Leaf} (hl : l.isPlain = true) :
      Guarded ready pending (.leaf l)
  | element {ready pending : Recursions} {item error : Value} (hitem : item.IsTotal) :
      Guarded ready pending (.leaf (.element item error))
  | wrap {ready pending : Recursions} {w : Wrapper} {g : Grammar} (hw : w.chooses = false)
      (hg : Guarded ready pending g) : Guarded ready pending (.wrap w g)
  | join {ready pending : Recursions} {j : Joint} {g h : Grammar} (hj : j ≠ .apply)
      (hg : Guarded ready pending g) (hh : Guarded ready pending h) :
      Guarded ready pending (.join j g h)
  | apply {ready pending : Recursions} {g h : Grammar}
      (hf : ∀ f, g.CanOutput .sequences f → f.IsTotal) (hg : Guarded ready pending g)
      (hh : Guarded ready pending h) : Guarded ready pending (.join .apply g h)
  | seq {ready pending ready' pending' : Recursions} {g h : Grammar}
      (hg : Guarded ready pending g) (hguards : Guards ready pending g ready' pending')
      (hh : Guarded ready' pending' h) : Guarded ready pending (.join .seq g h)
  | skip {ready pending ready' pending' : Recursions} {g h : Grammar}
      (hg : Guarded ready pending g) (hguards : Guards ready pending g ready' pending')
      (hh : Guarded ready' pending' h) : Guarded ready pending (.join .skip g h)
  | precededBy {ready pending ready' pending' : Recursions} {g h : Grammar}
      (hh : Guarded ready pending h) (hguards : Guards ready pending h ready' pending')
      (hg : Guarded ready' pending' g) : Guarded ready pending (.join .precededBy g h)
  | surroundedBy {ready pending ready' pending' ready'' pending'' : Recursions}
      {g left right : Grammar} (hleft : Guarded ready pending left)
      (hguards : Guards ready pending left ready' pending') (hg : Guarded ready' pending' g)
      (hguards' : Guards ready pending (.join .seq left g) ready'' pending'')
      (hright : Guarded ready'' pending'' right) :
      Guarded ready pending (.surroundedBy g left right)
  | ref {ready pending : Recursions} (x : Text) : Guarded ready pending (.ref x)
  | recursive {ready pending : Recursions} {x : Text} {body : Grammar}
      (h : Guarded ready ((x, body) :: pending) (unfold x body)) :
      Guarded ready pending (.recursive x body)
  | recursiveEager {ready pending : Recursions} (x : Text) (input : Value) (body : Grammar) :
      Guarded ready pending (.recursiveEager x input body)
  | handle {ready pending : Recursions} {x : Text} {body : Grammar} (h : (x, body) ∈ ready) :
      Guarded ready pending (.handle x body)

/-- On sequences of fewer than `n` elements every parse ends. -/
def Settles (n : Nat) (g : Grammar) : Prop :=
  Logic.settling.Fits (Scope.suffixes (.below n)) .same fun d => g.run d

section Settles

variable {m n : Nat} {g h : Grammar}

theorem Settles.mono (hg : g.Settles n) (hmn : m ≤ n) : g.Settles m := by
  refine Fits.rescope hg ?_ fun _ _ hleaves => hleaves
  intro a ha
  obtain ⟨input, ⟨hseq, hsize⟩, rfl⟩ := ha
  exact ⟨input, ⟨hseq, by omega⟩, rfl⟩

/-- One more call does not keep a rule from settling. -/
theorem fits_of_call {I : Inputs} {p q : Nat → Rule} (hq : ∀ d, q (d + 1) = p d)
    (hp : Logic.settling.Fits (Scope.suffixes I) .same p) :
    Logic.settling.Fits (Scope.suffixes I) .same q := by
  intro a ha made
  obtain ⟨input, hinput, rfl⟩ := ha
  have hnext : ∀ depth d, depth + 1 ≤ d → ∃ c, depth ≤ c ∧ q d input made = p c input made := by
    intro depth d hd
    obtain ⟨c, rfl⟩ := Nat.exists_eq_add_of_le' hd
    exact ⟨c + depth, by omega, by rw [← Nat.add_assoc, hq]⟩
  obtain ⟨depth, ⟨events, made', e, he, hall⟩ | ⟨events, made', r, hr, hall⟩⟩ :=
    hp _ ⟨input, hinput, rfl⟩ made
  · refine ⟨depth + 1, .inl ⟨events, made', e, he, fun d hd => ?_⟩⟩
    obtain ⟨c, hc, heq⟩ := hnext depth d hd
    exact heq.trans (hall c hc)
  · obtain ⟨v, -, rfl⟩ := uniform_reply (Scope.ordinary_suffixes _) ⟨input, hinput, rfl⟩ hr
    refine ⟨depth + 1, .inr ⟨events, made', _, hr, fun d hd => ?_⟩⟩
    obtain ⟨c, hc, heq⟩ := hnext depth d hd
    exact heq.trans (hall c hc)

theorem settles_of_call {q : Grammar} (hq : ∀ d, q.run (d + 1) = g.run d) (hg : g.Settles n) :
    q.Settles n :=
  fits_of_call hq hg

theorem settles_recursive {x : Text} {body : Grammar} (h : (unfold x body).Settles n) :
    (recursive x body).Settles n :=
  settles_of_call (fun _ => rfl) h

theorem settles_handle {x : Text} {body : Grammar} (h : (unfold x body).Settles n) :
    (handle x body).Settles n :=
  settles_of_call (fun _ => rfl) h

/-- A part that consumes hands over a shorter input. -/
theorem handsOver_of_consumes (hg : g.Settles (n + 1)) (hconsumes : g.Consumes) :
    Logic.settling.HandsOver (Scope.suffixes (.below (n + 1))) (Scope.suffixes (.below n)) .same
      fun d => g.run d := by
  intro a ha
  obtain ⟨input, ⟨hseq, hsize⟩, rfl⟩ := ha
  refine Logic.settling.weaken
    (Logic.settling.seen (hg _ ⟨input, ⟨hseq, hsize⟩, rfl⟩)) ?_
  intro r hr
  rcases hr with ⟨@⟨rest, v, hrest, hv⟩ | ⟨hrest, he⟩ | ⟨hr, hstray⟩, d, hreturns⟩
  · obtain ⟨k, rfl⟩ := hrest
    have hless := hconsumes d input _ _ hseq hreturns
    refine .success ⟨k, rfl⟩ ⟨input.dropFirst k, ⟨?_, ?_⟩, rfl⟩ hv
    · rw [Value.isSequence_dropFirst, hseq]
    · exact Nat.lt_of_lt_of_le hless (by omega)
  · exact .failure hrest he
  · exact .stray hr hstray

end Settles

/-- At lengths below `n` the recursions that are ready settle, and those that
are pending settle at every shorter length. -/
structure Ready (n : Nat) (ready pending : Recursions) : Prop where
  now : ∀ r ∈ ready, (handle r.1 r.2).Settles n
  later : ∀ r ∈ pending, ∀ m < n, (handle r.1 r.2).Settles m

theorem Ready.mono {m n : Nat} {ready pending : Recursions} (h : Ready n ready pending)
    (hmn : m ≤ n) : Ready m ready pending :=
  ⟨fun r hr => (h.now r hr).mono hmn, fun r hr k hk => h.later r hr k (by omega)⟩

/-- After something was consumed every recursion is ready. -/
theorem Ready.consumed {n : Nat} {ready pending : Recursions} (h : Ready (n + 1) ready pending) :
    Ready n (pending ++ ready) [] := by
  refine ⟨fun r hr => ?_, fun r hr => absurd hr (List.not_mem_nil)⟩
  rcases List.mem_append.mp hr with hr | hr
  · exact h.later r hr n (Nat.lt_succ_self n)
  · exact (h.now r hr).mono (Nat.le_succ n)

/-- The first part of a sequence leaves an input on which the second part
settles, at the same length or, if the first part consumes, at a shorter one. -/
theorem settles_after {n : Nat} {ready pending ready' pending' : Recursions} {g h : Grammar}
    (hready : Ready n ready pending) (hg : g.Settles n)
    (hguards : Guards ready pending g ready' pending')
    (hh : ∀ m, Ready m ready' pending' → h.Settles m) :
    ∃ m, Logic.settling.HandsOver (Scope.suffixes (.below n)) (Scope.suffixes (.below m)) .same
      (fun d => g.run d) ∧ h.Settles m := by
  cases hguards with
  | nothing => exact ⟨n, Fits.handsOver hg, hh n hready⟩
  | consumed hconsumes =>
    cases n with
    | zero =>
      refine ⟨0, Fits.handsOver hg, ?_⟩
      intro a ha
      obtain ⟨input, ⟨-, hsize⟩, rfl⟩ := ha
      exact absurd hsize (Nat.not_lt_zero _)
    | succ n => exact ⟨n, handsOver_of_consumes hg hconsumes, hh n hready.consumed⟩

/-- A call that ends settles. -/
theorem holds_call {g : Grammar} {input : Value} (hends : ∀ made, ∃ t, g.Ends input made t) :
    Logic.settling.Holds (fun d => callAt d g input) (Uniform fun _ => True) := by
  intro made
  obtain ⟨⟨events, made', result⟩, hdeep, depth, hall⟩ := hends made
  have hcall : ∀ d, depth + 1 ≤ d → callAt d g input made = ⟨events, made', result⟩ := by
    intro d hd
    obtain ⟨c, rfl⟩ := Nat.exists_eq_add_of_le' hd
    exact hall (c + depth) (by omega)
  cases result with
  | error e =>
    have he : e ≠ .tooDeep := fun heq => hdeep (congrArg Except.error heq)
    exact ⟨depth + 1, .inl ⟨events, made', e, he, hcall⟩⟩
  | ok v => exact ⟨depth + 1, .inr ⟨events, made', fun _ => v, uniform_const trivial, hcall⟩⟩

theorem holds_invoke_of_isTotal {f : Value} (hf : f.IsTotal) (arguments : List Value) :
    Logic.settling.Holds (fun d => f.invoke (callAt d) arguments) (Uniform fun _ => True) :=
  holds_invoke fun identity g input hparser _ => holds_call (hf identity g hparser input)

theorem settles_apply {n : Nat} {g h : Grammar}
    (hf : ∀ f, g.CanOutput .sequences f → f.IsTotal) (hg : g.Settles n) (hh : h.Settles n) :
    (join .apply g h).Settles n := by
  have hsequences : ∀ a : Nat → Value, (Scope.suffixes (.below n)).inputs a →
      ∀ i, Inputs.sequences.Mem (a i) := fun a ha i => (Scope.mem_of_suffixes ha i).1
  have hrule : Logic.settling.Fits (Scope.suffixes (.below n)) .same fun d =>
      Rule.apply (Value.invoke (callAt d)) (g.run d) (h.run d) := by
    refine (Fits.seen hg).apply hh (fun f v hfun hv => ?_) (fun _ he => he.1) (fun _ he => he)
      (fun _ hr => hr.1) fun _ hr => hr
    obtain ⟨d, hout⟩ := canOutput_of_reads hsequences (.inl hfun)
    obtain ⟨⟨f, -, rfl⟩, -⟩ := hfun
    obtain ⟨v, -, rfl⟩ := hv
    exact Logic.settling.bind_steady v.shallow_iterate fun arguments _ =>
      holds_invoke_of_isTotal (hf f hout) arguments
  exact hrule.congr fun d _ => by rw [run_join]; rfl

theorem settles_unwired {n : Nat} {g : Grammar} (hg : ∀ d, g.run d = fun _ => Run.fail .unwired) :
    g.Settles n := by
  intro input hinput
  exact Logic.settling.congr (fun d => congrFun (hg d) (input d)) allowsUnwired_settling

section Sequences

variable {m n : Nat} {g h left right : Grammar}

theorem settles_seq
    (hg : Logic.settling.HandsOver (Scope.suffixes (.below n)) (Scope.suffixes (.below m)) .same
      fun d => g.run d)
    (hh : h.Settles m) : (join .seq g h).Settles n :=
  (hg.seq (U := .same) hh (fun _ _ h => h)
    (fun _ _ hv hw => hv.map₂ (f := fun v w => .tuple [v, w]) hw fun _ _ _ _ => trivial)
    (fun _ he => he.map (f := .branch .left) fun _ _ => trivial)
    fun _ he => he.map (f := .branch .right) fun _ _ => trivial).congr
      fun d _ => by rw [run_join]; rfl

theorem settles_skip
    (hg : Logic.settling.HandsOver (Scope.suffixes (.below n)) (Scope.suffixes (.below m)) .same
      fun d => g.run d)
    (hh : h.Settles m) : (join .skip g h).Settles n :=
  (hg.skip (U := .same) hh (fun _ _ h => h) (fun _ hv => hv) (fun _ he => he)
    fun _ he => he).congr fun d _ => by rw [run_join]; rfl

theorem settles_precededBy
    (hh : Logic.settling.HandsOver (Scope.suffixes (.below n)) (Scope.suffixes (.below m)) .same
      fun d => h.run d)
    (hg : g.Settles m) : (join .precededBy g h).Settles n :=
  (hh.precededBy (U := .same) hg (fun _ _ h => h) (fun _ hv => hv)
    (fun _ he => he.map (f := .branch .left) fun _ _ => trivial)
    fun _ he => he.map (f := .branch .right) fun _ _ => trivial).congr
      fun d _ => by rw [run_join]; rfl

/-- The outer of the two sequences in a parser between others. -/
theorem settles_surroundedBy
    (hseq : Logic.settling.HandsOver (Scope.suffixes (.below n)) (Scope.suffixes (.below m)) .same
      fun d => (join .seq left g).run d)
    (hright : right.Settles m) : (surroundedBy g left right).Settles n := by
  have hpair := settles_seq hseq hright
  refine (Fits.map (U := .same) (f := fun _ => Rule.middle) hpair ?_ (fun _ he => he)
    fun _ hr => hr).congr fun d _ => by rw [run_surroundedBy, run_join, run_join]; rfl
  intro a ha
  obtain ⟨v, -, rfl⟩ := ha
  exact Logic.settling.steady (Rule.shallow_middle v) fun w _ => uniform_const trivial

end Sequences

/-- A recursion settles at a length if its body does wherever the recursion
settles at every shorter length. -/
theorem settles_of_unfold {x : Text} {body : Grammar} {ready pending : Recursions}
    (hbody : ∀ n, Ready n ready ((x, body) :: pending) → (unfold x body).Settles n) (n : Nat)
    (hready : Ready n ready pending) : (unfold x body).Settles n := by
  induction n using Nat.strongRecOn with
  | ind n ih =>
    refine hbody n ⟨hready.now, fun r hr m hm => ?_⟩
    rcases List.mem_cons.mp hr with rfl | hr
    · exact settles_handle (ih m hm (hready.mono (Nat.le_of_lt hm)))
    · exact hready.later r hr m hm

/-- The induction is on the guards along the tree, at every length at once. -/
theorem settles_of_guarded {ready pending : Recursions} {g : Grammar}
    (h : Guarded ready pending g) : ∀ n, Ready n ready pending → g.Settles n := by
  induction h with
  | leaf hl =>
    intro n _
    exact (fits_leaf (Scope.ordinary_suffixes _) hl).congr fun d _ => by rw [run_leaf]
  | element hitem =>
    intro n _
    refine (fits_accepts fun v => ?_).congr
      fun d _ => by rw [run_leaf]; rfl
    exact holds_invoke_of_isTotal hitem [v]
  | wrap hw _ ihg =>
    intro n hready
    refine (fits_wrapper (Scope.ordinary_suffixes _) hw (fun k => ?_) (ihg n hready)).congr
      fun d _ => by rw [run_wrap]
    exact Logic.settling.steady (shallow_log _) fun _ _ => trivial
  | join hj _ _ ihg ihh =>
    intro n hready
    exact (fits_joint (Scope.ordinary_suffixes _) hj (ihg n hready) (ihh n hready)).congr
      fun d _ => by rw [run_join]
  | apply hf _ _ ihg ihh => exact fun n hready => settles_apply hf (ihg n hready) (ihh n hready)
  | seq _ hguards _ ihg ihh =>
    intro n hready
    obtain ⟨m, hfirst, hsecond⟩ := settles_after hready (ihg n hready) hguards ihh
    exact settles_seq hfirst hsecond
  | skip _ hguards _ ihg ihh =>
    intro n hready
    obtain ⟨m, hfirst, hsecond⟩ := settles_after hready (ihg n hready) hguards ihh
    exact settles_skip hfirst hsecond
  | precededBy _ hguards _ ihh ihg =>
    intro n hready
    obtain ⟨m, hfirst, hsecond⟩ := settles_after hready (ihh n hready) hguards ihg
    exact settles_precededBy hfirst hsecond
  | surroundedBy _ hguards _ hguards' _ ihleft ihg ihright =>
    intro n hready
    obtain ⟨k, hfirst, hmiddle⟩ := settles_after hready (ihleft n hready) hguards ihg
    have hpair := settles_seq hfirst hmiddle
    obtain ⟨m, hseq, hlast⟩ := settles_after hready hpair hguards' ihright
    exact settles_surroundedBy hseq hlast
  | ref x => exact fun n _ => settles_unwired fun d => by rw [run_eq]; rfl
  | recursive _ ih => exact fun n hready => settles_recursive (settles_of_unfold ih n hready)
  | recursiveEager x input body => exact fun n _ => settles_unwired fun d => by rw [run_eq]; rfl
  | handle h => exact fun n hready => hready.now _ h

/-- A parse with a grammar whose recursions are all guarded ends on every sequence. -/
theorem ends_of_guarded {g : Grammar} (hg : Guarded [] [] g) {input : Value}
    (hinput : input.isSequence = true) (made : Nat) : ∃ t, g.Ends input made t := by
  have hready : Ready (input.size + 1) [] [] :=
    ⟨fun _ hr => absurd hr List.not_mem_nil, fun _ hr => absurd hr List.not_mem_nil⟩
  have hscope : (Scope.suffixes (ι := Nat) (.below (input.size + 1))).inputs fun _ => input :=
    ⟨input, ⟨hinput, Nat.lt_succ_self _⟩, rfl⟩
  have hsettles := settles_of_guarded hg _ hready (fun _ => input) hscope made
  obtain ⟨depth, ⟨events, made', e, he, hall⟩ | ⟨events, made', r, hr, hall⟩⟩ := hsettles
  · exact ⟨⟨events, made', .error e⟩, fun hdeep => he (Except.error.inj hdeep), depth, hall⟩
  · obtain ⟨v, -, rfl⟩ := uniform_reply (Scope.ordinary_suffixes _) hscope hr
    exact ⟨⟨events, made', .ok v⟩, nofun, depth, hall⟩

section Consumes

theorem length_eq_of_equalsAll : ∀ {vs ws : List Value}, Value.equalsAll vs ws = true →
    vs.length = ws.length
  | [], [], _ => rfl
  | [], _ :: _, h => by cases h
  | _ :: _, [], h => by cases h
  | v :: vs, w :: ws, h => by
    rw [Value.equalsAll, Bool.and_eq_true] at h
    rw [List.length_cons, List.length_cons, length_eq_of_equalsAll h.2]

theorem size_eq_of_equals {v w : Value} (h : v.equals w = true) : v.size = w.size := by
  cases v <;> cases w <;> simp_all [Value.equals, Value.size]
  all_goals exact length_eq_of_equalsAll h

/-- A literal that is not empty consumes. -/
theorem consumes_literal {pattern error : Value} (hpattern : 0 < pattern.size) :
    (leaf (.literal pattern error)).Consumes := by
  intro depth input rest v _ hreturns
  rw [run_leaf] at hreturns
  obtain ⟨a, ha, hreturns⟩ := hreturns.of_bind
  obtain rfl := Value.returns_cutAt ha
  have hstart := Value.fromStart_natCast input.size pattern.size
  by_cases hequal : (input.takeFirst (Value.fromStart input.size pattern.size)).equals pattern
  · simp only [hequal, if_true] at hreturns
    have hsize := size_eq_of_equals hequal
    obtain ⟨rfl, -⟩ := Value.success.inj (returns_pure.mp hreturns)
    rw [Value.size_takeFirst, hstart] at hsize
    rw [Value.size_dropFirst, hstart]
    omega
  · simp only [hequal] at hreturns
    cases returns_pure.mp hreturns

/-- A single element is consumed whatever it is tested by. -/
theorem consumes_element (item error : Value) : (leaf (.element item error)).Consumes := by
  intro depth input rest v _ hreturns
  rw [run_leaf] at hreturns
  obtain ⟨size, hsize, hreturns⟩ := hreturns.of_bind
  obtain ⟨-, rfl⟩ := Value.returns_length hsize
  by_cases hempty : input.size = 0
  · simp only [if_pos hempty] at hreturns
    cases returns_pure.mp hreturns
  · simp only [if_neg hempty] at hreturns
    obtain ⟨head, -, hreturns⟩ := hreturns.of_bind
    obtain ⟨passed, -, hreturns⟩ := hreturns.of_bind
    cases passed with
    | true =>
      obtain ⟨rfl, -⟩ := Value.success.inj (returns_pure.mp hreturns)
      rw [Value.size_dropFirst]
      omega
    | false => cases returns_pure.mp hreturns

end Consumes

/-- Lists in brackets with a comma after each item, the items being lists again.
What follows the bracket is a recursion inside the other. -/
def nestedLists : Grammar :=
  recursive [] (join .seq (leaf (.literal (.bytes [91]) .none))
    (recursive [CodePoint.space] (join .alt
      (join .seq (ref []) (join .seq (leaf (.literal (.bytes [44]) .none)) (ref [CodePoint.space])))
      (leaf (.literal (.bytes [93]) .none)))))

theorem ends_of_guarded_nestedLists :
    Guarded [] [] nestedLists ∧ (Value.bytes [91, 91, 93, 44, 93]).isSequence = true ∧
      ∃ t, nestedLists.Ends (.bytes [91, 91, 93, 44, 93]) 0 t := by
  have hconsumes : ∀ c : UInt8, (leaf (.literal (.bytes [c]) .none)).Consumes :=
    fun c => consumes_literal (Nat.succ_pos 0)
  have hguarded : Guarded [] [] nestedLists := by
    refine .recursive (.seq (.leaf rfl) (.consumed (hconsumes 91)) (.recursive ?_))
    refine .join nofun (.join nofun (.handle ?_) ?_) (.leaf rfl)
    · exact List.mem_cons_self ..
    · refine .seq (.leaf rfl) (.consumed (hconsumes 44)) (.handle ?_)
      exact List.mem_cons_self ..
  exact ⟨hguarded, rfl, ends_of_guarded hguarded rfl 0⟩

end Grammar

end ParserCombinators
