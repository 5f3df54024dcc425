import ParserCombinators.Proofs.Handles.Agreement
import ParserCombinators.Proofs.Names.Following
import ParserCombinators.Proofs.Names.Renamed

/-!
Grammars that differ only in names run alike. What one does at some depth the
other does at some depth, with the same result and the same calls of counted
parsers; only log lines may be worded differently. The depths differ, since a
function that is made a parser is called, where it had only been applied.
-/

namespace ParserCombinators

open Run Run.Logic

namespace Run.Logic

/-- The first grammar at one depth beside the second, but for the wording of log lines. -/
def beside : Logic Version := Logic.following Event.unworded

/-- What holds of the two runs one by one holds of them as a family. -/
theorem holds_versions {α : Type} {r s : Version → Run α} {Q : (Version → α) → Prop}
    (hs : beside.Holds s Q) (hfixed : r .fixed = s .fixed) (hdeep : ∀ d, r (.deep d) = s (.deep d)) :
    beside.Holds r Q := by
  refine beside.congr (fun i => ?_) hs
  cases i with
  | fixed => exact hfixed
  | deep d => exact hdeep d

theorem Fits.versions {p q : Version → Rule} (hq : beside.Fits .same .same q)
    (hfixed : p .fixed = q .fixed) (hdeep : ∀ d, p (.deep d) = q (.deep d)) :
    beside.Fits .same .same p :=
  fun input hinput => holds_versions (hq input hinput) (congrFun hfixed _)
    fun d => congrFun (hdeep d) _

end Run.Logic

section Selected

/-- What two functions return to go on with. -/
inductive Selected : (Version → Value) → Prop
  | same (w : Value) : Selected fun _ => w
  | renamed {w w' : Value} (hw : Value.Renamed w w') : Selected fun i => i.pick w w'

theorem Value.Renamed.eq_or_isCallable {v v' : Value} (h : Value.Renamed v v') :
    v = v' ∨ ∀ i : Version, (i.pick v v').isCallable = true := by
  by_cases hcallable : v.isCallable = true
  · refine .inr fun i => ?_
    cases i with
    | fixed => exact hcallable
    | deep _ => exact h.isCallable_eq.symm.trans hcallable
  · cases h with
    | closed _ => exact .inl rfl
    | made hv hcall => exact absurd (hv.isCallable_eq.trans hcall) hcallable
    | inserted _ hv => exact absurd hv.isCallable_eq hcallable
    | _ => exact absurd rfl hcallable

theorem Wrapper.closed_exactly {count error : Value} (hcount : count.Closed)
    (herror : error.Closed) : (Wrapper.exactly count error).Closed :=
  fun x s => by rw [Wrapper.subst, hcount x s, herror x s]

theorem Wrapper.closed_atLeast {count error : Value} (hcount : count.Closed)
    (herror : error.Closed) : (Wrapper.atLeast count error).Closed :=
  fun x s => by rw [Wrapper.subst, hcount x s, herror x s]

/-- Parsers repeated as often as a value says. -/
theorem holds_make_repeated {v : Value} {w : Wrapper} {g g' : Grammar} (hw : v.Closed → w.Closed)
    (hg : Grammar.Renamed g g') :
    beside.Holds (fun i => do
      let _ ← v.toCount
      v.requireWritable
      Grammar.make (.wrap w (i.pick g g'))) Selected := by
  refine beside.bind_steady v.shallow_toCount fun n hn =>
    beside.bind_steady v.shallow_requireWritable fun _ _ =>
      beside.bind_steady shallow_newIdentity fun identity _ => ?_
  have hmade : Value.Renamed (.parser identity (.wrap w g)) (.parser identity (.wrap w g')) :=
    .parser (.wrap (.closed (hw (Value.closed_of_toCount hn))) hg)
  exact holds_versions (s := fun i => pure (i.pick _ _)) (beside.pure (.renamed hmade)) rfl
    fun _ => rfl

theorem Callback.Renamed.holds_apply (v : Value) : ∀ {f f' : Callback}, Callback.Renamed f f' →
    beside.Holds (fun i => (i.pick f f').apply [v]) Selected
  | f, _, .closed _ =>
    holds_versions (beside.steady (shallow_apply f [v]) fun w _ => .same w) rfl fun _ => rfl
  | .const w, .const w', .const hw =>
    holds_versions (s := fun i => pure (i.pick w w')) (beside.pure (.renamed hw)) rfl fun _ => rfl
  | _, _, @Callback.Renamed.compose functions f f' _ hf =>
    holds_versions
      (s := fun i => Callback.applyAll functions v >>= fun w => (i.pick f f').apply [w])
      (beside.bind_steady (shallow_applyAll functions v) fun w _ => hf.holds_apply w)
      (Callback.applyAll_append functions f v) fun _ => Callback.applyAll_append functions f' v
  | .named _ f, .named _ f', .named hf =>
    holds_versions (s := fun i => (i.pick f f').apply [v]) (hf.holds_apply v) rfl fun _ => rfl
  | .parser i g, .parser j g', .parser hg =>
    holds_versions (s := fun k => pure (k.pick (g.toValue i) (g'.toValue j)))
      (beside.pure (.renamed (hg.toValue i j))) rfl fun _ => rfl
  | .select choice, .select choice', .select hchoice =>
    holds_versions (s := fun i => pure (i.pick (choice.find v) (choice'.find v)))
      (beside.pure (.renamed (hchoice.find v))) rfl fun _ => rfl
  | .exactlyOf _ _, _, .exactlyOf hg herror =>
    holds_versions (holds_make_repeated (Wrapper.closed_exactly · herror) hg) rfl fun _ => rfl
  | .atLeastOf _ _, _, .atLeastOf hg herror =>
    holds_versions (holds_make_repeated (Wrapper.closed_atLeast · herror) hg) rfl fun _ => rfl

end Selected

section Rules

theorem Wrapper.OnlyNames.rule_eq {n : Wrapper} (hn : n.OnlyNames) (call : Grammar → Rule)
    (g : Grammar) (p : Rule) : n.rule call g p = p := by
  cases hn <;> rfl

theorem Grammar.callAt_wrap {n : Wrapper} (hn : n.OnlyNames) (d : Nat) (g : Grammar) :
    callAt d (wrap n g) = callAt d g := by
  cases d with
  | zero => rfl
  | succ d => exact (run_wrap d n g).trans (hn.rule_eq _ _ _)

theorem Value.toRule_of_isCallable {v : Value} (h : v.isCallable = true) (call : Grammar → Rule) :
    v.toRule call = pure ((Leaf.value v).rule call) := by
  cases v <;> first | rfl | cases h

variable {d : Nat}
  (hcall : ∀ {g g' : Grammar}, Grammar.Renamed g g' → beside.Fits .same .same fun i =>
    i.pick (Grammar.callAt d g) (g'.rule (Grammar.callAt (i.depth d))))

include hcall

/-- A call needs one depth more. -/
theorem fits_calls_renamed {g g' : Grammar} (h : Grammar.Renamed g g') :
    beside.Fits .same .same fun i => Grammar.callAt (i.depth d) (i.pick g g') :=
  (hcall h).deeper rfl fun depth => Grammar.run_eq depth g'

/-- A value that is made a parser costs a call more than the value itself. -/
theorem Value.Renamed.fits : ∀ {v v' : Value}, Value.Renamed v v' →
    beside.Fits .same .same fun i => (Leaf.value (i.pick v v')).rule (Grammar.callAt (i.depth d))
  | v, _, .closed _ =>
    (fits_value_of_calls (Grammar.fits_following d) v).versions rfl fun _ => rfl
  | .parser _ _, .parser _ _, .parser hg =>
    (fits_calls_renamed hcall hg).versions rfl fun _ => rfl
  | _, _, @Value.Renamed.made _ _ v' hv _ =>
    (Value.Renamed.fits hv).deeper rfl fun depth => Grammar.run_leaf depth (.value v')
  | _, _, .unmade hv _ => (hcall (.leaf (.value hv))).versions rfl fun _ => rfl
  | _, _, @Value.Renamed.inserted _ _ _ _ g' hn hv =>
    (Value.Renamed.fits hv).versions rfl fun depth => Grammar.callAt_wrap hn depth g'
  | _, _, @Value.Renamed.removed _ _ _ _ g hn hv =>
    (Value.Renamed.fits hv).versions (Grammar.callAt_wrap hn d g) fun _ => rfl

theorem Selected.holds_toRule {w : Version → Value} (hw : Selected w) :
    beside.Holds (fun i => (w i).toRule (Grammar.callAt (i.depth d)))
      (beside.Fits .same .same) := by
  have hsame : ∀ v : Value, beside.Holds (fun i => v.toRule (Grammar.callAt (i.depth d)))
      (beside.Fits .same .same) := by
    intro v
    by_cases hv : v.isCallable = true
    · simp only [Value.toRule_of_isCallable hv]
      exact beside.pure (fits_value_of_calls (Grammar.fits_following d) v)
    · cases v with
      | function _ _ => exact absurd rfl hv
      | parser _ _ => exact absurd rfl hv
      | _ => exact beside.fail nofun
  cases hw with
  | same w => exact hsame w
  | @renamed w w' hw =>
    obtain rfl | hcallable := hw.eq_or_isCallable
    · exact holds_versions (hsame w) rfl fun _ => rfl
    · exact beside.congr (fun i => Value.toRule_of_isCallable (hcallable i) _)
        (beside.pure (Value.Renamed.fits hcall hw))

theorem holds_choose_renamed {f f' : Callback} (hf : Callback.Renamed f f') (v : Value) :
    beside.Holds (fun i => (i.pick f f').choose (Grammar.callAt (i.depth d)) v)
      (beside.Fits .same .same) :=
  beside.bind (hf.holds_apply v) fun _ hw => hw.holds_toRule hcall

theorem fits_leaf_renamed {l l' : Leaf} (h : Leaf.Renamed l l') :
    beside.Fits .same .same fun i => (i.pick l l').rule (Grammar.callAt (i.depth d)) := by
  have hsame : ∀ l : Leaf, beside.Fits .same .same fun i => l.rule (Grammar.callAt (i.depth d)) :=
    fun l => fits_rule allowsUnwired_following (Grammar.fits_following d) (.leaf l)
  cases h with
  | closed _ => exact (hsame l).versions rfl fun _ => rfl
  | value hv => exact (Value.Renamed.fits hcall hv).versions rfl fun _ => rfl
  | @element item item' error hitem _ =>
    obtain rfl | hcallable := hitem.eq_or_isCallable
    · exact (hsame (.element item error)).versions rfl fun _ => rfl
    · have htested : beside.Fits .same .same fun i => Rule.element
          ((i.pick item item').accepts (Grammar.callAt (i.depth d))) error := by
        refine fits_tested hcallable fun v => ?_
        have hinput : (Scope.same (ι := Version)).inputs fun _ => v := uniform_const trivial
        exact beside.weaken (Value.Renamed.fits hcall hitem _ hinput) fun r hr =>
          uniform_reply Scope.ordinary_same hinput hr
      exact htested.versions rfl fun _ => rfl

theorem fits_wrap_renamed {w w' : Wrapper} {g g' : Grammar} {p : Version → Rule}
    (hw : Wrapper.Renamed w w') (hp : beside.Fits .same .same p) :
    beside.Fits .same .same fun i =>
      (i.pick w w').rule (Grammar.callAt (i.depth d)) (i.pick g g') (p i) := by
  have hchoose : ∀ {f f' : Callback}, Callback.Renamed f f' → ∀ v : Value,
      beside.Holds (fun i => (i.pick f f').choose (Grammar.callAt (i.depth d)) v)
        (beside.Fits .same .same) := holds_choose_renamed hcall
  cases hw with
  | closed hw =>
    by_cases hplain : w.chooses = false
    · have hrule : beside.Fits .same .same fun i =>
          w.rule (Grammar.callAt (i.depth d)) (i.pick g g') (p i) :=
        fits_wrapper Scope.ordinary_same hplain
          (fun _ => holds_log_following (fun _ _ => rfl) _ trivial) hp
      exact hrule.versions rfl fun _ => rfl
    · cases w with
      | recoverWith f =>
        have hf : f.Closed := fun x s => Wrapper.recoverWith.inj (hw x s)
        exact (hp.recoverWith_same (hchoose (.closed hf))).versions rfl fun _ => rfl
      | andThen f =>
        have hf : f.Closed := fun x s => Wrapper.andThen.inj (hw x s)
        exact (hp.andThen_same (hchoose (.closed hf))).versions rfl fun _ => rfl
      | bind f h =>
        have hf : f.Closed := fun x s => (Wrapper.bind.inj (hw x s)).1
        have hh : h.Closed := fun x s => (Wrapper.bind.inj (hw x s)).2
        exact (hp.bind_same (hchoose (.closed hf)) (hchoose (.closed hh))).versions rfl fun _ => rfl
      | _ => exact absurd rfl hplain
  | recoverWith hf => exact (hp.recoverWith_same (hchoose hf)).versions rfl fun _ => rfl
  | andThen hf => exact (hp.andThen_same (hchoose hf)).versions rfl fun _ => rfl
  | bind hf hh => exact (hp.bind_same (hchoose hf) (hchoose hh)).versions rfl fun _ => rfl

/-- Grammars that differ only in names agree if calls of such grammars do. -/
theorem fits_renamed : ∀ {g g' : Grammar}, Grammar.Renamed g g' →
    beside.Fits .same .same fun i => (i.pick g g').rule (Grammar.callAt (i.depth d))
  | _, _, .inserted hn hg _ =>
    (fits_renamed hg).versions rfl fun _ => hn.rule_eq _ _ _
  | _, _, .removed hn hg _ =>
    (fits_renamed hg).versions (hn.rule_eq _ _ _) fun _ => rfl
  | g, _, .closed _ => (fits_rule allowsUnwired_following (Grammar.fits_following d) g).versions rfl fun _ => rfl
  | _, _, .leaf hl => (fits_leaf_renamed hcall hl).versions rfl fun _ => rfl
  | _, _, .wrap hw hg => (fits_wrap_renamed hcall hw (fits_renamed hg)).versions rfl fun _ => rfl
  | .join j _ _, _, .join _ hg hh =>
    (fits_join (Grammar.fits_following d) j (fits_renamed hg) (fits_renamed hh)).versions rfl
      fun _ => rfl
  | _, _, .surroundedBy hg hleft hright =>
    (fits_surroundedBy (fits_renamed hg) (fits_renamed hleft) (fits_renamed hright)).versions rfl
      fun _ => rfl
  | .ref _, _, .ref _ =>
    Fits.versions (q := fun _ _ => Run.fail .unwired) (fun _ _ => allowsUnwired_following) rfl fun _ => rfl
  | .recursive _ _, .recursive _ _, .recursive hbody =>
    (fits_calls_renamed hcall (Grammar.renamed_unfold hbody)).versions rfl fun _ => rfl
  | .handle _ _, .handle _ _, .handle hbody =>
    (fits_calls_renamed hcall (Grammar.renamed_unfold hbody)).versions rfl fun _ => rfl

end Rules

namespace Grammar

variable {g g' : Grammar} {input : Value} {made : Nat}

/-- A call of a grammar is one shallower than a run, so calls agree by induction
on the depth. -/
theorem Renamed.fits_callAt (d : Nat) : ∀ {g g' : Grammar}, Renamed g g' →
    beside.Fits .same .same fun i => i.pick (callAt d g) (g'.rule (callAt (i.depth d))) := by
  induction d with
  | zero => exact fun _ _ _ _ => .inl rfl
  | succ d ih =>
    intro g g' h
    exact (fits_renamed ih h).versions (run_eq d g) fun _ => rfl

/-- What the first grammar does at some depth the second does at another. -/
theorem Renamed.exists_run_agrees (h : Renamed g g') {d : Nat}
    (hd : (g.run d input made).result ≠ .error .tooDeep) :
    ∃ d', (g.run d input made).Agrees (g'.run d' input made) := by
  have hinput : (Scope.same (ι := Version)).inputs fun _ => input := uniform_const trivial
  have hfits : beside.Fits .same .same fun i => (i.pick g g').rule (callAt (i.depth d)) :=
    fits_renamed (Renamed.fits_callAt d) h
  obtain hdeep | ⟨enough, events, made', hview, hend⟩ := hfits _ hinput made
  · rw [run_eq] at hd
    exact absurd hdeep hd
  refine ⟨enough, ?_⟩
  rw [run_eq, run_eq]
  rcases hend with ⟨e, hend⟩ | ⟨r, hr, hend⟩
  · have hfirst : g.rule (callAt d) input made = ⟨events .fixed, made', .error e⟩ :=
      hend .fixed trivial
    have hsecond : g'.rule (callAt enough) input made = ⟨events (.deep enough), made', .error e⟩ :=
      hend (.deep enough) (Nat.le_refl _)
    rw [hfirst, hsecond]
    exact ⟨(hview _).symm, rfl, rfl⟩
  · obtain ⟨v, -, rfl⟩ := uniform_reply Scope.ordinary_same hinput hr
    have hfirst : g.rule (callAt d) input made = ⟨events .fixed, made', .ok v⟩ :=
      hend .fixed trivial
    have hsecond : g'.rule (callAt enough) input made = ⟨events (.deep enough), made', .ok v⟩ :=
      hend (.deep enough) (Nat.le_refl _)
    rw [hfirst, hsecond]
    exact ⟨(hview _).symm, rfl, rfl⟩

end Grammar

end ParserCombinators
