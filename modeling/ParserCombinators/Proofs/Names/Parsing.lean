import ParserCombinators.Grammar.Construction
import ParserCombinators.Proofs.Handles.Unfolding
import ParserCombinators.Proofs.Names.Agreement

/-!
Names make no difference to a parse. Two grammars that differ only in names end
together, with the same result and the same calls of counted parsers, or recurse
forever together, and what is reported of a failure is the same. A name is seen
only where a parser is written out, or in the wording of a log line.
-/

namespace ParserCombinators

open Run

namespace Grammar

variable {g g' : Grammar} {input : Value} {made : Nat}

theorem Renamed.ends (h : Renamed g g') {t : Trace Value} (ht : g.Ends input made t) :
    ∃ t', g'.Ends input made t' ∧ t.Agrees t' := by
  obtain ⟨hdeep, d, hd⟩ := ht
  have hrun : g.run d input made = t := hd d (Nat.le_refl d)
  obtain ⟨d', hagrees⟩ := h.exists_run_agrees (by rw [hrun]; exact hdeep)
  rw [hrun] at hagrees
  exact ⟨_, ends_of_run (by rw [← hagrees.result]; exact hdeep), hagrees⟩

theorem Renamed.parsesAs (h : Renamed g g') : g.ParsesAs g' := by
  intro input made
  rcases ends_or_recursesForever g input made with ⟨t, ht⟩ | hforever
  · obtain ⟨t', ht', hagrees⟩ := h.ends ht
    exact .inl ⟨t, t', ht, ht', hagrees⟩
  · rcases ends_or_recursesForever g' input made with ⟨t', ht'⟩ | hforever'
    · obtain ⟨t, ht, -⟩ := h.symm.ends ht'
      exact absurd hforever ht.not_recursesForever
    · exact .inr ⟨hforever, hforever'⟩

/-- Parses that are not broken off for their depth agree. -/
theorem Renamed.parse_agrees (h : Renamed g g')
    (hg : (g.parse input made).result ≠ .error .tooDeep)
    (hg' : (g'.parse input made).result ≠ .error .tooDeep) :
    (g.parse input made).Agrees (g'.parse input made) := by
  obtain ⟨t', ht', hagrees⟩ := h.ends (ends_of_run hg)
  rwa [ht'.unique (ends_of_run hg')] at hagrees

end Grammar

section Report

theorem Run.agrees_bind {α β : Type} {r s : Run α} {f h : α → Run β} {made : Nat}
    (hrs : (r made).Agrees (s made)) (hfh : ∀ a made, (f a made).Agrees (h a made)) :
    ((r >>= f) made).Agrees ((s >>= h) made) := by
  obtain ⟨hevents, hmade, hresult⟩ := hrs
  rcases hr : r made with ⟨events, made', e | a⟩
  · rcases hs : s made with ⟨events', made'', result⟩
    rw [hr, hs] at hevents hmade hresult
    subst hmade hresult
    rw [bind_apply_error hr, bind_apply_error hs]
    exact ⟨hevents, rfl, rfl⟩
  · rcases hs : s made with ⟨events', made'', result⟩
    rw [hr, hs] at hevents hmade hresult
    subst hmade hresult
    rw [bind_apply_ok hr, bind_apply_ok hs]
    obtain ⟨hevents', hmade', hresult'⟩ := hfh a made'
    refine ⟨?_, hmade', hresult'⟩
    rw [List.map_append, List.map_append, hevents, hevents']

/-- After the same part of two runs. -/
theorem Run.agrees_bind_shared {α β : Type} (r : Run α) {f h : α → Run β} (made : Nat)
    (hfh : ∀ a made, (f a made).Agrees (h a made)) :
    ((r >>= f) made).Agrees ((r >>= h) made) :=
  agrees_bind (.refl _) hfh

/-- The name of a parser gets into the log line for its failure, and no further. -/
theorem Grammar.parseOrReport_agrees {g g' : Grammar} {input : Value} {made : Nat}
    (h : (g.parse input made).Agrees (g'.parse input made)) :
    (g.parseOrReport input made).Agrees (g'.parseOrReport input made) := by
  refine agrees_bind h fun r made => ?_
  by_cases htrue : r.isTrue = true
  · rw [if_pos htrue, if_pos htrue]
    exact .refl _
  · rw [if_neg htrue, if_neg htrue]
    refine agrees_bind_shared _ _ fun whole made => agrees_bind_shared _ _ fun rest made =>
      agrees_bind_shared _ _ fun left made => agrees_bind_shared _ _ fun e made =>
        agrees_bind_shared _ _ fun _ made => agrees_bind ?_ fun _ made => .refl _
    exact ⟨rfl, rfl, rfl⟩

end Report

namespace Grammar

/-- Grammars that differ only in names parse alike, and report alike what they fail on. -/
theorem parsesAs_of_renamed {g g' : Grammar} (h : Renamed g g') :
    g.ParsesAs g' ∧ ∀ input made,
      (g.parse input made).result ≠ .error .tooDeep →
      (g'.parse input made).result ≠ .error .tooDeep →
      (g.parse input made).Agrees (g'.parse input made) ∧
        (g.parseOrReport input made).Agrees (g'.parseOrReport input made) := by
  refine ⟨h.parsesAs, fun input made hg hg' => ?_⟩
  have hagrees := h.parse_agrees hg hg'
  exact ⟨hagrees, parseOrReport_agrees hagrees⟩

/-- Any number of brackets and one more character, after which a function demands
the end. -/
def brackets : Grammar :=
  recursive "nest" (join .alt
    (join .seq (leaf (.literal (.text "[") .none)) (ref "nest"))
    (wrap (.andThen (.parser 0 (leaf (.endOfInput (.text "more"))))) (leaf (.anything .none))))

/-- The same with a name for the body, a plain function around the handle, and a
name for the parser that the function returns. -/
def namedBrackets : Grammar :=
  recursive "nest" (wrap (.named "brackets") (join .alt
    (join .seq (leaf (.literal (.text "[") .none)) (wrap (.function none) (ref "nest")))
    (wrap (.andThen (.parser 1 (wrap (.named "end") (leaf (.endOfInput (.text "more"))))))
      (leaf (.anything .none)))))

theorem parsesAs_of_renamed_brackets :
    brackets.Renamed namedBrackets ∧ brackets.ParsesAs namedBrackets ∧
      (brackets.parse (.text "[ab") 0).result ≠ .error .tooDeep ∧
      (namedBrackets.parse (.text "[ab") 0).result ≠ .error .tooDeep ∧
      (brackets.parseOrReport (.text "[ab") 0).Agrees
        (namedBrackets.parseOrReport (.text "[ab") 0) := by
  have hleaf : ∀ l : Leaf, l.Closed → (leaf l).Renamed (leaf l) := fun l hl => .leaf (.closed hl)
  have hrenamed : brackets.Renamed namedBrackets := by
    refine .recursive (.inserted (.named _) (.join (fun _ _ => rfl) ?_ ?_) rfl)
    · exact .join (fun _ _ => rfl) (hleaf _ fun _ _ => rfl) (.inserted (.function _) (.ref _) rfl)
    · refine .wrap (.andThen (.parser (.inserted (.named _) ?_ rfl))) (hleaf _ fun _ _ => rfl)
      exact hleaf _ fun _ _ => rfl
  have hbrackets : (brackets.parse (.text "[ab") 0).result ≠ .error .tooDeep := nofun
  have hnamed : (namedBrackets.parse (.text "[ab") 0).result ≠ .error .tooDeep := nofun
  obtain ⟨hparses, hreports⟩ := parsesAs_of_renamed hrenamed
  exact ⟨hrenamed, hparses, hbrackets, hnamed, (hreports _ 0 hbrackets hnamed).2⟩

/-- A parser that outputs how long the written form of another one is. -/
def writtenLength (g : Grammar) : Grammar :=
  wrap (.map (.compose [.parser 0 g, .display, .length])) (leaf (.always .none))

/-- Where a parser is written out, its name is part of the output. -/
theorem not_parsesAs_writtenLength :
    ((writtenLength (wrap (.named "n") (leaf (.always .none)))).build 0).result = .ok () ∧
      ((writtenLength (leaf (.always .none))).build 0).result = .ok () ∧
      ¬ (writtenLength (wrap (.named "n") (leaf (.always .none)))).ParsesAs
        (writtenLength (leaf (.always .none))) := by
  refine ⟨rfl, rfl, fun hparses => ?_⟩
  have hnamed : (writtenLength (wrap (.named "n") (leaf (.always .none)))).Ends (.text []) 0
      ⟨[], 0, .ok (.success (.text []) (.int 10))⟩ := Ends.of_run (d := 0) rfl nofun
  have hplain : (writtenLength (leaf (.always .none))).Ends (.text []) 0
      ⟨[], 0, .ok (.success (.text []) (.int 19))⟩ := Ends.of_run (d := 0) rfl nofun
  rcases hparses (.text []) 0 with ⟨t, t', ht, ht', hagrees⟩ | ⟨hforever, -⟩
  · obtain rfl := ht.unique hnamed
    obtain rfl := ht'.unique hplain
    have houtput := (Value.success.inj (Except.ok.inj hagrees.result)).2
    exact absurd (Value.int.inj houtput) (by decide)
  · exact hnamed.not_recursesForever hforever

end Grammar

end ParserCombinators
