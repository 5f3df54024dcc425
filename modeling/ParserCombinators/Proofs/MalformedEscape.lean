import ParserCombinators.Proofs.QuotedFault

/-!
What becomes of an escape that is not well formed. Where escapes begin with one
character, a plain character is never that one, so the string ends there and fails
with the message of the escape. Where they begin with a longer text, every character
other than the quote may be a plain one: the malformed escape is read on as plain
text, and only a missing quote makes the string fail.
-/

namespace ParserCombinators

open Run

/-- A text begins with a well-formed escape. -/
def BeginsWithEscape (mark : Text) (escapes : List (Text × Text)) (t : Text) : Prop :=
  ∃ w m, EscapeForm mark escapes w m ∧ w <+: t

/-- What a text begins with inside a string, what this means and what it leaves:
well-formed escapes, and characters other than the quote that stand at no barred place. -/
inductive Contents (quote : CodePoint) (mark : Text) (escapes : List (Text × Text))
    (barred : Text → Prop) : Text → Text → Text → Prop
  | done (t : Text) : Contents quote mark escapes barred t [] t
  | plain {c : CodePoint} {t m u : Text} (hquote : c ≠ quote) (hbarred : ¬ barred (c :: t))
    (hrest : Contents quote mark escapes barred t m u) :
    Contents quote mark escapes barred (c :: t) (c :: m) u
  | escape {w v t m u : Text} (hw : EscapeForm mark escapes w v)
    (hrest : Contents quote mark escapes barred t m u) :
    Contents quote mark escapes barred (w ++ t) (v ++ m) u

/-- An escape that nothing follows, or one that announces a code point without its
digits, with the message for it. -/
inductive Malformed (mark : Text) : Text → Text → Prop
  | dangling : Malformed mark mark ("Expected a character to escape after \x60" ++ mark ++ "\x60.")
  | point {t : Text} (ht : ¬ t.BeginsWithPoint) : Malformed mark (mark ++ letterU :: t)
      "Expected 4 hexadecimal characters after unicode escape sequence."

section Malformed

variable {mark t message : Text} {escapes : List (Text × Text)}

theorem not_beginsWithEscape_of_not_prefix (h : ¬ mark <+: t) :
    ¬ BeginsWithEscape mark escapes t := by
  rintro ⟨w, v, hw, hbegins⟩
  have hmark : mark <+: w := by
    cases hw with
    | replaced => exact List.prefix_append _ _
    | unicode => exact List.prefix_append _ _
  exact h (hmark.trans hbegins)

theorem Malformed.mark_begins (h : Malformed mark t message) : mark <+: t := by
  cases h with
  | dangling => exact List.prefix_rfl
  | point => exact List.prefix_append _ _

theorem Malformed.head_mem {c : CodePoint} (h : Malformed mark (c :: t) message)
    (hne : mark ≠ []) : c ∈ mark := by
  obtain ⟨d, rest, rfl⟩ := List.exists_cons_of_ne_nil hne
  obtain ⟨rfl, -⟩ := List.cons_prefix_cons.mp h.mark_begins
  exact List.mem_cons_self

theorem Malformed.not_beginsWithEscape (h : Malformed mark t message) :
    ¬ BeginsWithEscape mark escapes t := by
  rintro ⟨w, v, hw, hbegins⟩
  cases h with
  | dangling =>
    have hlonger : mark.length < w.length := by
      cases hw <;> simp
    have hle := hbegins.length_le
    omega
  | @point t ht =>
    cases hw with
    | replaced hc =>
      have hletter := (List.prefix_append_right_inj mark).mp hbegins
      exact hc (List.cons_prefix_cons.mp hletter).1
    | @unicode digits c hlength hdigits hc =>
      have hletter := (List.prefix_append_right_inj mark).mp hbegins
      obtain ⟨u, rfl⟩ := (List.cons_prefix_cons.mp hletter).2
      exact ht ⟨digits, u, rfl, hlength, hdigits⟩

/-- Without bars on them, characters other than the quote and well-formed escapes
go on to the quote or to the end of the text. -/
theorem exists_contents_to_quote (quote : CodePoint) (mark : Text) (escapes : List (Text × Text))
    (t : Text) : ∃ m u, Contents quote mark escapes (BeginsWithEscape mark escapes) t m u ∧
      (u = [] ∨ ∃ v, u = quote :: v) := by
  by_cases hescape : BeginsWithEscape mark escapes t
  · obtain ⟨w, v, hw, t, rfl⟩ := hescape
    have hpos := List.length_pos_iff.mpr hw.ne_nil
    have hshorter : t.length < (w ++ t).length := by
      rw [List.length_append]
      omega
    obtain ⟨m, u, hrest, hu⟩ := exists_contents_to_quote quote mark escapes t
    exact ⟨v ++ m, u, .escape hw hrest, hu⟩
  · cases t with
    | nil => exact ⟨[], [], .done [], .inl rfl⟩
    | cons c t =>
      by_cases hquote : c = quote
      · exact ⟨[], c :: t, .done _, .inr ⟨t, by rw [hquote]⟩⟩
      · obtain ⟨m, u, hrest, hu⟩ := exists_contents_to_quote quote mark escapes t
        exact ⟨c :: m, u, .plain hquote hescape hrest, hu⟩
termination_by t.length

end Malformed

namespace Rule

variable {quote : CodePoint} {mark : Text} {escapes : List (Text × Text)} {t u m message : Text}

theorem escaped_text_of_malformed (h : Malformed mark t message) (escapes : List (Text × Text)) :
    ∃ rest, escaped mark escapes (.text t) =
      pure (.failure rest (.branch .right (.text message))) := by
  cases h with
  | dangling => exact ⟨_, escaped_text_dangling mark escapes⟩
  | point ht =>
    obtain ⟨rest, hrest⟩ := unicodeEscape_text_refuses ht
    exact ⟨rest, escaped_of_failure resolveEscape_letterU hrest⟩

/-- The escape that a string begins with is one piece of it. -/
theorem anyPiece_escape {w v : Text} (hw : EscapeForm mark escapes w v) (t : Text) :
    anyPiece quote mark escapes (.text (w ++ t)) = pure (.success (.text t) (.text v)) :=
  foldedAlt_left (escaped_text hw t)

/-- Contents are read piece by piece, if the characters at places that are not barred are. -/
theorem exists_reads_of_contents {barred : Text → Prop}
    (hplain : ∀ c t, c ≠ quote → ¬ barred (c :: t) →
      anyPiece quote mark escapes (.text (c :: t)) = pure (.success (.text t) (.text [c])))
    (h : Contents quote mark escapes barred t m u) :
    ∃ ms, Reads (anyPiece quote mark escapes) t ms u ∧ ms.flatten = m := by
  induction h with
  | done t => exact ⟨[], .done t, rfl⟩
  | @plain c t m u hquote hbarred _ ih =>
    obtain ⟨ms, hread, rfl⟩ := ih
    exact ⟨[c] :: ms, .piece (Nat.lt_succ_self _) (hplain c t hquote hbarred) hread, rfl⟩
  | @escape w v t m u hw _ ih =>
    obtain ⟨ms, hread, rfl⟩ := ih
    have hshorter : t.length < (w ++ t).length := by
      have hpos := List.length_pos_iff.mpr hw.ne_nil
      rw [List.length_append]
      omega
    exact ⟨v :: ms, .piece hshorter (anyPiece_escape hw t) hread, rfl⟩

/-- A character at which no escape begins is plain. -/
theorem anyPiece_text_cons {c : CodePoint} (hquote : c ≠ quote) (hmark : ¬ mark <+: c :: t) :
    anyPiece quote mark escapes (.text (c :: t)) = pure (.success (.text t) (.text [c])) := by
  have hne : [c] ≠ mark := by
    rintro rfl
    exact hmark (List.prefix_append [c] t)
  exact foldedAlt_right (escaped_text_refuses hmark) (plainElement_text_cons hquote hne t)

/-- Where escapes begin with more than a character, every other character is plain
unless a well-formed escape begins with it. -/
theorem anyPiece_text_cons_of_long {c : CodePoint} (hlong : mark.length ≠ 1) (hquote : c ≠ quote)
    (hescape : ¬ BeginsWithEscape mark escapes (c :: t)) :
    anyPiece quote mark escapes (.text (c :: t)) = pure (.success (.text t) (.text [c])) := by
  have hne : [c] ≠ mark := by
    rintro rfl
    exact hlong rfl
  obtain ⟨w, v, u, hw, ht⟩ | ⟨_, _, _, hrefuses⟩ := escaped_text_cases mark escapes (c :: t)
  · exact absurd ⟨w, v, hw, u, ht.symm⟩ hescape
  · exact foldedAlt_right hrefuses (plainElement_text_cons hquote hne t)

/-- At the quote and at the end of the text no piece begins. -/
theorem anyPiece_text_stops (escapes : List (Text × Text)) (hne : mark ≠ []) (hmark : quote ∉ mark)
    (ht : t = [] ∨ ∃ u, t = quote :: u) :
    ¬ mark <+: t ∧ ∃ e, anyPiece quote mark escapes (.text t) = pure (.failure (.text t) e) := by
  have hnot : ¬ mark <+: t := by
    intro hbegins
    rcases ht with rfl | ⟨u, rfl⟩
    · exact hne (List.prefix_nil.mp hbegins)
    · obtain ⟨c, mark, rfl⟩ := List.exists_cons_of_ne_nil hne
      obtain ⟨rfl, -⟩ := List.cons_prefix_cons.mp hbegins
      exact hmark List.mem_cons_self
  refine ⟨hnot, ?_⟩
  rcases ht with rfl | ⟨u, rfl⟩
  · exact ⟨_, foldedAlt_refuses (escaped_text_refuses hnot) element_text_nil⟩
  · exact ⟨_, foldedAlt_refuses (escaped_text_refuses hnot)
      (plainElement_text_refuses (.inl rfl) u)⟩

variable {quotes : Value}

/-- Where one character begins the escapes, none of the pieces can be read at a
malformed one, and the string fails with its message. -/
theorem quotedString_text_of_malformed (hquote : quotes.contains (.text [quote]) = pure true)
    (hlength : mark.length = 1) (hmark : quote ∉ mark)
    (hread : Contents quote mark escapes (mark <+: ·) t m u) (hbad : Malformed mark u message) :
    quotedString quotes mark escapes (.text (quote :: t)) =
      pure (.failure (.text (quote :: t)) (.text message)) := by
  obtain ⟨ms, hpieces, -⟩ := exists_reads_of_contents (fun c t => anyPiece_text_cons) hread
  obtain ⟨rest, hescaped⟩ := escaped_text_of_malformed hbad escapes
  obtain ⟨escape, rfl⟩ := List.length_eq_one_iff.mp hlength
  obtain ⟨v, rfl⟩ := hbad.mark_begins
  have hplain : plainElement (.text [quote]) [escape] (.text (escape :: v)) = _ :=
    plainElement_text_refuses (.inr rfl) v
  have hclosing : ¬ [quote] <+: [escape] ++ v := by
    intro hbegins
    obtain ⟨rfl, -⟩ := List.cons_prefix_cons.mp hbegins
    exact hmark List.mem_cons_self
  exact quotedString_text_of_failure hquote
    (afterQuote_text_refuses hpieces (foldedAlt_refuses hescaped hplain) hclosing hescaped)

/-- Where a longer text begins the escapes, the first character of a malformed one is
plain, and so is all that follows up to the quote except well-formed escapes. -/
theorem quotedString_text_of_long (hquote : quotes.contains (.text [quote]) = pure true)
    (hne : mark ≠ []) (hlong : mark.length ≠ 1) (hmark : quote ∉ mark)
    (hread : Contents quote mark escapes (mark <+: ·) t m u) (hbad : Malformed mark u message) :
    ∃ c u' m' v, u = c :: u' ∧
      Contents quote mark escapes (BeginsWithEscape mark escapes) u' m' v ∧
      ((∃ tail, v = quote :: tail ∧ quotedString quotes mark escapes (.text (quote :: t)) =
          pure (.success (.text tail) (.text (m ++ c :: m')))) ∨
        v = [] ∧ quotedString quotes mark escapes (.text (quote :: t)) =
          pure (.failure (.text (quote :: t))
            (.text ("Expected closing quote \x60" ++ [quote] ++ "\x60.")))) := by
  have hnot : ¬ BeginsWithEscape mark escapes u := hbad.not_beginsWithEscape
  obtain ⟨c, u', rfl⟩ : ∃ c u', u = c :: u' := by
    refine List.exists_cons_of_ne_nil ?_
    rintro rfl
    exact hne (List.prefix_nil.mp hbad.mark_begins)
  have hc : c ≠ quote := by
    rintro rfl
    exact hmark (hbad.head_mem hne)
  obtain ⟨m', v, hrest, hv⟩ := exists_contents_to_quote quote mark escapes u'
  -- The pieces before the malformed escape, its first character, and the pieces after it.
  obtain ⟨ms, hbefore, rfl⟩ := exists_reads_of_contents (fun c t => anyPiece_text_cons) hread
  obtain ⟨ns, hafter, rfl⟩ :=
    exists_reads_of_contents (fun c t => anyPiece_text_cons_of_long hlong) hrest
  have hfirst := anyPiece_text_cons_of_long hlong hc hnot
  have hpieces := hbefore.append (.piece (Nat.lt_succ_self _) hfirst hafter)
  obtain ⟨hend, e, hstop⟩ := anyPiece_text_stops escapes hne hmark hv
  refine ⟨c, u', ns.flatten, v, rfl, hrest, ?_⟩
  rcases hv with rfl | ⟨tail, rfl⟩
  · have hopen := afterQuote_text_refuses hpieces hstop (by simp) (escaped_text_refuses hend)
    exact .inr ⟨rfl, quotedString_text_of_failure hquote hopen⟩
  · refine .inl ⟨tail, rfl, quotedString_text_of_success hquote ?_⟩
    have hclosed := afterQuote_text hpieces hstop
    rwa [List.flatten_append, List.flatten_cons] at hclosed

end Rule

namespace Grammar

/-- A string whose contents come to a malformed escape fails as a whole with the message
of this escape if escapes begin with one character. Otherwise the malformed escape is
read on as plain text, and the string is closed by the next quote or fails for want of it. -/
theorem run_quotedString_malformed {quotes : Value} {quote : CodePoint} {mark : Text}
    (hquote : quotes.contains (.text [quote]) = pure true) (hne : mark ≠ [])
    (hmark : quote ∉ mark) (escapes : List (Text × Text)) (depth : Nat) {t m u message : Text}
    (hread : Contents quote mark escapes (mark <+: ·) t m u) (hbad : Malformed mark u message) :
    (mark.length = 1 →
      (leaf (.quotedString quotes mark escapes)).run depth (.text (quote :: t)) =
        pure (.failure (.text (quote :: t)) (.text message))) ∧
    (mark.length ≠ 1 → ∃ c u' m' v, u = c :: u' ∧
      Contents quote mark escapes (BeginsWithEscape mark escapes) u' m' v ∧
      ((∃ tail, v = quote :: tail ∧
          (leaf (.quotedString quotes mark escapes)).run depth (.text (quote :: t)) =
            pure (.success (.text tail) (.text (m ++ c :: m')))) ∨
        v = [] ∧ (leaf (.quotedString quotes mark escapes)).run depth (.text (quote :: t)) =
          pure (.failure (.text (quote :: t))
            (.text ("Expected closing quote \x60" ++ [quote] ++ "\x60."))))) := by
  rw [run_leaf]
  exact ⟨fun hlength => Rule.quotedString_text_of_malformed hquote hlength hmark hread hbad,
    fun hlong => Rule.quotedString_text_of_long hquote hne hlong hmark hread hbad⟩

/-- A backslash that nothing follows. -/
theorem run_quotedString_malformed_backslash :
    Rule.generalQuotes.contains (.text [.doubleQuote]) = pure true ∧
      Rule.generalEscape ≠ [] ∧ CodePoint.doubleQuote ∉ Rule.generalEscape ∧
      Contents .doubleQuote Rule.generalEscape CharacterSet.generalEscapes
        (Rule.generalEscape <+: ·) "a\\" "a" "\\" ∧
      Malformed Rule.generalEscape "\\" "Expected a character to escape after \x60\\\x60." ∧
      Rule.generalEscape.length = 1 ∧
      (leaf (.quotedString Rule.generalQuotes Rule.generalEscape CharacterSet.generalEscapes)).run 0
          (.text "\"a\\") =
        pure (.failure (.text "\"a\\")
          (.text "Expected a character to escape after \x60\\\x60.")) := by
  have hquote : Rule.generalQuotes.contains (.text [.doubleQuote]) = pure true := rfl
  have hne : Rule.generalEscape ≠ [] := by decide
  have hmark : CodePoint.doubleQuote ∉ Rule.generalEscape := by decide
  have hread : Contents .doubleQuote Rule.generalEscape CharacterSet.generalEscapes
      (Rule.generalEscape <+: ·) "a\\" "a" "\\" :=
    .plain (by decide) (by decide) (.done _)
  have hbad : Malformed Rule.generalEscape "\\"
      "Expected a character to escape after \x60\\\x60." := .dangling
  exact ⟨hquote, hne, hmark, hread, hbad, rfl,
    (run_quotedString_malformed hquote hne hmark CharacterSet.generalEscapes 0 hread hbad).1 rfl⟩

/-- Where two percent signs begin the escapes, a malformed escape is read as plain text. -/
theorem run_quotedString_percentSigns :
    Contents .doubleQuote "%%" [] (("%%" : Text) <+: ·) "ab%%u12\"" "ab" "%%u12\"" ∧
      Malformed "%%" "%%u12\"" "Expected 4 hexadecimal characters after unicode escape sequence." ∧
      (leaf (.quotedString Rule.generalQuotes "%%" [])).run 0 (.text "\"ab%%u12\"") =
        pure (.success (.text []) (.text "ab%%u12")) := by
  have hpoint : ¬ Text.BeginsWithPoint "12\"" := by
    rintro ⟨digits, u, ht, hlength, -⟩
    have hthree : (digits ++ u).length = 3 := ht ▸ rfl
    rw [List.length_append] at hthree
    omega
  have hbad : Malformed "%%" "%%u12\""
      "Expected 4 hexadecimal characters after unicode escape sequence." := .point hpoint
  refine ⟨.plain (by decide) (by decide) (.plain (by decide) (by decide) (.done _)), hbad, ?_⟩
  -- No well-formed escape begins anywhere, so all characters up to the quote are plain.
  have hnone : ∀ t : Text, ¬ ("%%" : Text) <+: t → ¬ BeginsWithEscape "%%" [] t :=
    fun t => not_beginsWithEscape_of_not_prefix
  have hplain : Contents .doubleQuote "%%" [] (BeginsWithEscape "%%" []) "ab%%u12\"" "ab%%u12" "\"" :=
    .plain (by decide) (hnone _ (by decide)) <| .plain (by decide) (hnone _ (by decide)) <|
    .plain (by decide) hbad.not_beginsWithEscape <| .plain (by decide) (hnone _ (by decide)) <|
    .plain (by decide) (hnone _ (by decide)) <| .plain (by decide) (hnone _ (by decide)) <|
    .plain (by decide) (hnone _ (by decide)) (.done _)
  obtain ⟨ms, hread, hmeaning⟩ := Rule.exists_reads_of_contents
    (fun c t => Rule.anyPiece_text_cons_of_long (by decide)) hplain
  have hne : ("%%" : Text) ≠ [] := by decide
  have hmark : CodePoint.doubleQuote ∉ ("%%" : Text) := by decide
  obtain ⟨-, e, hstop⟩ := Rule.anyPiece_text_stops [] hne hmark (.inr ⟨[], rfl⟩)
  rw [run_leaf, ← hmeaning]
  exact Rule.quotedString_text_of_success rfl (Rule.afterQuote_text hread hstop)

end Grammar

end ParserCombinators
