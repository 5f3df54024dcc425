import ParserCombinators.Proofs.Handles.Agreement

/-!
A recursive parser is the fixed point of its body. If the body only calls its
handles, the recursive parser and the body with that parser in the place of its
name end together, with the same result, or recurse forever together. A body
that writes its handle out shows which of the two it is in.
-/

namespace ParserCombinators.Grammar

variable {x : Text} {body g h : Grammar} {input : Value} {made : Nat}

/-- On every input either both parses end, with traces that agree, or both
recurse forever. -/
def ParsesAs (g h : Grammar) : Prop := ∀ input made,
  (∃ t t', g.Ends input made t ∧ h.Ends input made t' ∧ t.Agrees t') ∨
    g.RecursesForever input made ∧ h.RecursesForever input made

/-- A parse leaves only one trace. -/
theorem Ends.unique {t t' : Trace Value} (ht : g.Ends input made t) (ht' : g.Ends input made t') :
    t = t' := by
  obtain ⟨-, depth, h⟩ := ht
  obtain ⟨-, depth', h'⟩ := ht'
  rw [← h (max depth depth') (by omega), h' (max depth depth') (by omega)]

theorem Ends.of_run {d : Nat} {t : Trace Value} (hrun : g.run d input made = t)
    (ht : t.result ≠ .error .tooDeep) : g.Ends input made t :=
  hrun ▸ ends_of_run (hrun ▸ ht)

theorem Ends.not_recursesForever {t : Trace Value} (ht : g.Ends input made t) :
    ¬ g.RecursesForever input made := by
  intro hforever
  obtain ⟨hdeep, depth, h⟩ := ht
  exact hdeep (h depth (Nat.le_refl depth) ▸ hforever depth)

/-- Grammars whose runs agree, one of them one call deeper, parse alike. -/
theorem parsesAs_of_run_agrees
    (hrun : ∀ d input made, (g.run (d + 1) input made).Agrees (h.run d input made)) :
    g.ParsesAs h := by
  intro input made
  rcases ends_or_recursesForever g input made with ⟨t, ht⟩ | hforever
  · obtain ⟨hdeep, depth, hdepth⟩ := ht
    have hagrees : t.Agrees (h.run depth input made) := by
      rw [← hdepth (depth + 1) (by omega)]
      exact hrun depth input made
    have hends : h.Ends input made (h.run depth input made) :=
      ends_of_run (by rw [← hagrees.result]; exact hdeep)
    exact .inl ⟨t, _, ⟨hdeep, depth, hdepth⟩, hends, hagrees⟩
  · refine .inr ⟨hforever, fun d => ?_⟩
    rw [← (hrun d input made).result]
    exact hforever (d + 1)

/-- A recursive parser parses as its body with the parser in the place of its name. -/
theorem recursive_parsesAs_unfolding (hbody : body.CallsHandles) :
    (recursive x body).ParsesAs (subst x (recursive x body) body) := by
  have halike : Alike (unfold x body) (subst x (recursive x body) body) :=
    Alike.subst (.opened hbody) hbody
  -- The recursive parser runs its body with the handle, one call deeper.
  exact parsesAs_of_run_agrees fun d input made => halike.run_agrees d input made

/-- Lists of lists. A list opens with a bracket and any character ends it; after a
semicolon another list follows, which a function chooses. -/
def lists : Grammar :=
  join .seq (leaf (.literal (.text "[") .none)) (recursive "items" (join .alt
    (join .seq (ref "list") (ref "items"))
    (wrap (.andThen (.select (.when (.text ";") 0 (ref "list")
      (.otherwise 1 (leaf (.always .none)))))) (leaf (.anything .none)))))

theorem recursive_parsesAs_unfolding_lists :
    lists.CallsHandles ∧
      (recursive "list" lists).ParsesAs (subst "list" (recursive "list" lists) lists) := by
  have hchosen : Callback.Alike
      (.select (.when (.text ";") 0 (ref "list") (.otherwise 1 (leaf (.always .none)))))
      (.select (.when (.text ";") 0 (ref "list") (.otherwise 1 (leaf (.always .none))))) :=
    .select (.when (fun _ _ => rfl) (.ref _) (.otherwise (.leaf (.closed fun _ _ => rfl))))
  have hlists : lists.CallsHandles := by
    refine .join (fun _ _ => rfl) (.leaf (.closed fun _ _ => rfl)) (.recursive ?_)
    refine .join (fun _ _ => rfl) (.join (fun _ _ => rfl) (.ref _) (.ref _)) ?_
    exact .wrap (.andThen hchosen) (.leaf (.closed fun _ _ => rfl))
  exact ⟨hlists, recursive_parsesAs_unfolding hlists⟩

/-- A parser that outputs its own handle, written out. -/
def ownName : Grammar :=
  wrap (.map .display) (wrap (.map (.parser 0 (ref "self"))) (leaf (.always .none)))

/-- A handle has a name of its own, so writing it out tells it from the parser. -/
theorem not_parsesAs_unfolding_ownName :
    ¬ (recursive "self" ownName).ParsesAs (subst "self" (recursive "self" ownName) ownName) := by
  intro hparses
  have hrecursive : (recursive "self" ownName).Ends (.text []) 0
      ⟨[], 0, .ok (.success (.text []) (.text "<Parser recursive>"))⟩ :=
    Ends.of_run (d := 1) rfl nofun
  have hunfolding : (subst "self" (recursive "self" ownName) ownName).Ends (.text []) 0
      ⟨[], 0, .ok (.success (.text [])
        (.text "<Parser recursive(map(map(pure(None))))>"))⟩ :=
    Ends.of_run (d := 1) rfl nofun
  rcases hparses (.text []) 0 with ⟨t, t', ht, ht', hagrees⟩ | ⟨hforever, -⟩
  · obtain rfl := ht.unique hrecursive
    obtain rfl := ht'.unique hunfolding
    have houtput := (Value.success.inj (Except.ok.inj hagrees.result)).2
    exact absurd (Value.text.inj houtput) (by decide)
  · exact hrecursive.not_recursesForever hforever

end ParserCombinators.Grammar
