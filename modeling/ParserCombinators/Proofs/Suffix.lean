import ParserCombinators.Proofs.Grammar.Borrow

/-!
Every outcome of a grammar on a sequence leaves a suffix of that sequence. The
plain functions that the grammar runs as parsers must keep to this themselves;
everything else is shown to keep to it, also where a rule goes on from the rest
of a failure or returns to where it began.
-/

namespace ParserCombinators

open Run Run.Logic

/-- On a sequence every outcome of the rule leaves a suffix of it. -/
def Rule.LeavesSuffixes (p : Rule) : Prop :=
  ∀ input r rest, input.isSequence = true → (p input).Returns r → r.rest? = some rest →
    rest.IsSuffixOf input

theorem Reply.isSuffixOf {ι : Type} {I : Inputs} {S : Shape ι} {input rest : Value} {r : ι → Value}
    (hr : Reply (Scope.suffixes I) S (fun _ => input) r) (i : ι) (hrest : (r i).rest? = some rest) :
    rest.IsSuffixOf input := by
  obtain ⟨⟨n, hn⟩, -⟩ | ⟨⟨n, hn⟩, -⟩ | ⟨-, hstray⟩ := hr
  · cases hrest
    rw [hn]
    exact Value.isSuffixOf_dropFirst n input
  · cases hrest
    rw [hn]
    exact Value.isSuffixOf_dropFirst n input
  · rw [hstray.rest?_eq_none i] at hrest
    cases hrest

theorem Rule.LeavesSuffixes.fits {p : Rule} (hp : p.LeavesSuffixes) :
    (Logic.single True).Fits (Scope.suffixes .sequences) .same fun _ => p := by
  intro a ha
  obtain ⟨input, hinput, rfl⟩ := ha
  refine holds_single fun r hr => ?_
  have hend : ∀ rest, r.rest? = some rest → ∃ n, rest = input.dropFirst n := fun rest hrest =>
    ⟨_, (hp input r rest hinput hr hrest).2⟩
  by_cases hstray : r.rest? = none
  · exact .stray (uniform_const trivial) (stray_of_rest?_eq_none hstray)
  · cases r with
    | success rest v =>
      obtain ⟨n, hn⟩ := hend rest rfl
      exact .success ⟨n, funext fun _ => hn⟩ (uniform_const trivial)
    | failure rest e =>
      obtain ⟨n, hn⟩ := hend rest rfl
      exact .failure ⟨n, funext fun _ => hn⟩ (uniform_const trivial)
    | _ => exact absurd rfl hstray

theorem Run.Logic.Fits.leavesSuffixes {S : Shape Unit} {p : Rule}
    (hp : (Logic.single True).Fits (Scope.suffixes .sequences) S fun _ => p) :
    p.LeavesSuffixes := by
  intro input r rest hinput hreturns hrest
  obtain ⟨made, hr⟩ := hreturns
  have hreply := (hp (fun _ => input) ⟨input, hinput, rfl⟩ made).2 r hr
  exact hreply.isSuffixOf () hrest

namespace Grammar

variable {depth : Nat}

/-- The plain functions that a grammar runs as parsers leave suffixes. -/
def BorrowsSuffixes (g : Grammar) : Prop := ∀ p, g.Borrows .sequences p → p.LeavesSuffixes

theorem fits_value_suffixes
    (hcall : ∀ g : Grammar, g.BorrowsSuffixes → (callAt depth g).LeavesSuffixes) {v : Value}
    (hv : (leaf (.value v)).BorrowsSuffixes) :
    (Logic.single True).Fits (Scope.suffixes .sequences) .same
      fun _ => (Leaf.value v).rule (callAt depth) := by
  refine fits_value ?_ ?_
  · intro identity f heq
    subst heq
    exact (hv _ (.function identity f)).fits
  · intro identity g heq
    subst heq
    exact (hcall g fun p hp => hv p (.parser hp)).fits

/-- A parser that was chosen leaves suffixes whichever value it was chosen by. -/
theorem holds_chosen (hcall : ∀ g : Grammar, g.BorrowsSuffixes → (callAt depth g).LeavesSuffixes)
    {f : Callback} {v : Value}
    (hv : ∀ w, (f.apply [v]).Returns w → (leaf (.value w)).BorrowsSuffixes) :
    (Logic.single True).Holds (fun _ => f.choose (callAt depth) v)
      ((Logic.single True).Fits (Scope.suffixes .sequences) .same) :=
  holds_choose fun w hw => fits_value_suffixes hcall (hv w hw)

theorem fits_wrapper_suffixes
    (hcall : ∀ g : Grammar, g.BorrowsSuffixes → (callAt depth g).LeavesSuffixes) {w : Wrapper}
    {g : Grammar} (h : (wrap w g).BorrowsSuffixes)
    (hg : (Logic.single True).Fits (Scope.suffixes .sequences) .same fun _ => g.run depth) :
    (Logic.single True).Fits (Scope.suffixes .sequences) .same
      fun _ => w.rule (callAt depth) g (g.run depth) := by
  have hchosen : ∀ v, CanChoose .sequences w g v → (leaf (.value v)).BorrowsSuffixes :=
    fun v hv p hp => h p (.chosen hv hp)
  have houtput : ∀ v, (Shape.same.seen (Scope.suffixes .sequences) fun _ => g.run depth).reads v →
      g.CanOutput .sequences (v ()) := fun v hv => by
    obtain ⟨_, hv⟩ := canOutput_of_reads (fun _ => Scope.mem_of_suffixes) hv
    exact hv
  by_cases hw : w.chooses = false
  · exact fits_wrapper (Scope.ordinary_suffixes _) hw
      (fun n => (Logic.single True).steady (shallow_log _) fun _ _ => trivial) hg
  · cases w with
    | recoverWith f =>
      refine hg.seen.recoverWith (fun e he => ?_) (fun _ hv => hv.1) fun _ hr => hr.1
      obtain ⟨_, he⟩ := canFail_of_errors (fun _ => Scope.mem_of_suffixes) he
      exact holds_chosen hcall fun w hw => hchosen w (.recoverWith he hw)
    | andThen f =>
      refine hg.seen.andThen (fun v hv => ?_) (fun _ he => he.1) fun _ hr => hr.1
      exact holds_chosen hcall fun w hw => hchosen w (.andThen (houtput v hv) hw)
    | bind onSuccess onFailure =>
      refine hg.seen.bind (fun v hv => ?_) fun e he => ?_
      · exact holds_chosen hcall fun w hw => hchosen w (.onSuccess (houtput v hv) hw)
      · obtain ⟨_, he⟩ := canFail_of_errors (fun _ => Scope.mem_of_suffixes) he
        exact holds_chosen hcall fun w hw => hchosen w (.onFailure he hw)
    | _ => exact absurd rfl hw

/-- The step: what calls keep to, the rule of a grammar keeps to. -/
theorem fits_rule (hcall : ∀ g : Grammar, g.BorrowsSuffixes → (callAt depth g).LeavesSuffixes) :
    ∀ g : Grammar, g.BorrowsSuffixes →
      (Logic.single True).Fits (Scope.suffixes .sequences) .same fun _ => g.run depth
  | leaf l, h => by
    rw [run_eq]
    by_cases hl : l.isPlain = true
    · exact fits_leaf (Scope.ordinary_suffixes _) hl
    · cases l with
      | element item error =>
        refine fits_accepts fun _ => ?_
        exact holds_single fun _ _ => uniform_const trivial
      | value v => exact fits_value_suffixes hcall h
      | reply outcome => exact (h _ (.reply outcome)).fits
      | _ => exact absurd rfl hl
  | wrap w g, h => by
    have hg := fits_rule hcall g fun p hp => h p (.wrap hp)
    have hrule := fits_wrapper_suffixes hcall h hg
    rw [run_eq] at hrule ⊢
    exact hrule
  | join j g k, h => by
    have hg := fits_rule hcall g fun p hp => h p (.joinLeft hp)
    have hk := fits_rule hcall k fun p hp => h p (.joinRight hp)
    rw [run_eq] at hg hk ⊢
    by_cases hj : j = .apply
    · subst hj
      refine hg.apply hk (fun _ _ _ _ => ?_) (fun _ he => he) (fun _ he => he)
        (fun _ hr => hr) fun _ hr => hr
      exact holds_single fun _ _ => uniform_const trivial
    · exact fits_joint (Scope.ordinary_suffixes _) hj hg hk
  | surroundedBy g left right, h => by
    have hg := fits_rule hcall g fun p hp => h p (.inside hp)
    have hleft := fits_rule hcall left fun p hp => h p (.before hp)
    have hright := fits_rule hcall right fun p hp => h p (.after hp)
    rw [run_eq] at hg hleft hright ⊢
    exact fits_surroundedBy hg hleft hright
  | ref x, _ => by
    rw [run_eq]
    exact fun _ _ => allowsUnwired_single
  | recursive x body, h => by
    rw [run_eq]
    exact (hcall (unfold x body) fun p hp => h p (.recursive hp)).fits
  | recursiveEager x input body, _ => by
    rw [run_eq]
    exact fun _ _ => allowsUnwired_single
  | handle x body, h => by
    rw [run_eq]
    exact (hcall (unfold x body) fun p hp => h p (.handle hp)).fits

/-- Calls keep to it at every depth. -/
theorem callAt_leavesSuffixes (depth : Nat) :
    ∀ g : Grammar, g.BorrowsSuffixes → (callAt depth g).LeavesSuffixes := by
  induction depth with
  | zero => exact fun _ _ _ _ _ _ hr => absurd hr not_returns_fail
  | succ depth ih => exact fun g hg => (fits_rule ih g hg).leavesSuffixes

end Grammar

end ParserCombinators
