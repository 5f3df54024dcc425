import ParserCombinators.Proofs.Comment
import ParserCombinators.Proofs.Rule.Answer

/-!
What may be skipped around a parser of texts. Whitespace before and after it, and
spaces or a comment before it, never fail. So the parser is run once, on what is left
of the text, and its outcome is kept: the markers that the skipping puts around an
error are taken off again, and none of those that the error has itself.
-/

namespace ParserCombinators

open Run

/-- On every text the rule replies with an outcome that leaves a suffix of it. -/
def Rule.LeavesTexts (p : Rule) : Prop :=
  ∀ t r, (p (.text t)).Returns r →
    ∃ u : Text, u <:+ t ∧ ((∃ v, r = .success (.text u) v) ∨ ∃ e, r = .failure (.text u) e)

/-- A reply of which a success leaves a text without whitespace in front. -/
def Value.trimmed : Value → Value
  | .success (.text u) v => .success (.text u.trimStart) v
  | r => r

namespace Rule

variable {p skipped : Rule} {s start stop : Text}

section Lexeme

/-- With whitespace around it a rule is run behind the whitespace, and nothing else
happens. -/
theorem lexeme_eq (hp : p.LeavesTexts) (s : Text) :
    p.lexeme (.text s) = Value.trimmed <$> p (.text s.trimStart) := by
  obtain ⟨before, hbefore⟩ := whitespaces_text_trimStart s
  rw [map_eq_pure_bind]
  unfold lexeme mapError surroundedBy map seq
  simp only [hbefore, pure_bind, bind_assoc, Value.isTrue_success, if_true, Value.rest_success]
  refine bind_congr_of_returns fun r hr => ?_
  obtain ⟨u, -, ⟨v, rfl⟩ | ⟨e, rfl⟩⟩ := hp _ r hr
  · obtain ⟨after, hafter⟩ := whitespaces_text_trimStart u
    simp [hafter, accept, middle, Value.item_zero_pair, Value.item_one_pair, Value.trimmed]
  · simp [reject, Value.output, Value.trimmed]

theorem LeavesTexts.lexeme (hp : p.LeavesTexts) : p.lexeme.LeavesTexts := by
  intro t r hr
  rw [lexeme_eq hp, map_eq_pure_bind] at hr
  obtain ⟨r', hr', hr⟩ := hr.of_bind
  obtain rfl := returns_pure.mp hr
  have htrim := t.trimStart_suffix
  obtain ⟨u, hu, ⟨v, rfl⟩ | ⟨e, rfl⟩⟩ := hp _ r' hr'
  · exact ⟨u.trimStart, (u.trimStart_suffix.trans hu).trans htrim, .inl ⟨v, rfl⟩⟩
  · exact ⟨u, hu.trans htrim, .inr ⟨e, rfl⟩⟩

theorem trimmed_trimmed (r : Value) : r.trimmed.trimmed = r.trimmed := by
  cases r with
  | success rest v =>
    cases rest with
    | text u => simp only [Value.trimmed, Text.trimStart_trimStart]
    | _ => rfl
  | _ => rfl

/-- Behind whitespace that has been skipped there is no more of it to skip. -/
theorem lexeme_lexeme_eq (hp : p.LeavesTexts) (s : Text) :
    p.lexeme.lexeme (.text s) = p.lexeme (.text s) := by
  rw [lexeme_eq hp.lexeme, lexeme_eq hp, lexeme_eq hp, Text.trimStart_trimStart, Functor.map_map]
  simp only [trimmed_trimmed]

end Lexeme

section Skip

/-- Behind something that never fails a rule is run on what that leaves, and its
outcome is kept. -/
theorem skipping_eq (hp : p.LeavesTexts) {u : Text} {v : Value}
    (hskipped : skipped (.text s) = pure (.success (.text u) v)) :
    p.skipping skipped (.text s) = p (.text u) := by
  rw [← bind_pure (p (.text u))]
  unfold skipping precededBy second mapError map seq
  simp only [hskipped, pure_bind, bind_assoc, Value.isTrue_success, if_true, Value.rest_success]
  refine bind_congr_of_returns fun r hr => ?_
  obtain ⟨w, -, ⟨x, rfl⟩ | ⟨e, rfl⟩⟩ := hp u r hr
  · simp [accept, Value.item_one_pair]
  · simp [reject, Value.output]

theorem skipSpaces_eq (hp : p.LeavesTexts) (s : Text) :
    p.skipSpaces (.text s) = p (.text (s.dropWhile (· == CodePoint.space))) := by
  obtain ⟨hsplit, hspaces, hrest⟩ := Text.takeWhile_dropWhile (· == CodePoint.space) s
  have hread : space.manyQuietly
      (.text (s.takeWhile (· == CodePoint.space) ++ s.dropWhile (· == CodePoint.space))) = _ :=
    manyQuietly_elements
      (fun c hc => by simp [Value.equals_character, eq_of_beq (hspaces c hc)])
      fun c hc => by simp [Value.equals_character, beq_eq_false_iff_ne.mp (hrest c hc)]
  rw [hsplit] at hread
  exact skipping_eq hp hread

theorem skipLineComment_append (hp : p.LeavesTexts) (start body : Text) :
    p.skipLineComment (.text start) (.text (start ++ body)) =
      p (.text ((body.dropWhile (· != CodePoint.newline)).dropWhile (· == CodePoint.newline))) :=
  skipping_eq hp (maybe_of_success (lineComment_text_append start body))

theorem skipLineComment_of_not_prefix (hp : p.LeavesTexts) (h : ¬ start <+: s) :
    p.skipLineComment (.text start) (.text s) = p (.text s) :=
  skipping_eq hp (maybe_of_failure (lineComment_text_refuses h))

theorem skipBlockComment_of_occursFirst (hp : p.LeavesTexts) {body : Text} {i : Nat}
    (h : stop.OccursFirst body i) :
    p.skipBlockComment (.text start) (.text stop) (.text (start ++ body)) =
      p (.text (body.drop (i + stop.length))) :=
  skipping_eq hp (maybe_of_success (blockComment_text_of_occursFirst h))

/-- Without a complete comment nothing is skipped, not even the beginning of one. -/
theorem skipBlockComment_of_not_infix (hp : p.LeavesTexts)
    (h : ∀ body, s = start ++ body → ¬ stop <:+: body) :
    p.skipBlockComment (.text start) (.text stop) (.text s) = p (.text s) := by
  by_cases hstart : start <+: s
  · obtain ⟨body, rfl⟩ := hstart
    exact skipping_eq hp (maybe_of_failure (blockComment_text_unclosed (h body rfl)))
  · exact skipping_eq hp (maybe_of_failure (blockComment_text_refuses hstart))

end Skip

/-- A rule with something to skip around it is run once, on what is left of the text.
All that comes of it is kept: what it logs and calls, the fault that ends it, its
failure with the error as it is, and its success, which loses nothing but the
whitespace after it. -/
theorem skipping_keeps_outcome (hp : p.LeavesTexts) (s : Text) :
    (p.lexeme (.text s) = Value.trimmed <$> p (.text s.trimStart) ∧
      p.lexeme.lexeme (.text s) = p.lexeme (.text s)) ∧
    p.skipSpaces (.text s) = p (.text (s.dropWhile (· == CodePoint.space))) ∧
    (∀ start : Text,
      (∀ body, s = start ++ body → p.skipLineComment (.text start) (.text s) =
        p (.text ((body.dropWhile (· != CodePoint.newline)).dropWhile
          (· == CodePoint.newline)))) ∧
      (¬ start <+: s → p.skipLineComment (.text start) (.text s) = p (.text s))) ∧
    ∀ start stop : Text,
      (∀ body i, s = start ++ body → stop.OccursFirst body i →
        p.skipBlockComment (.text start) (.text stop) (.text s) =
          p (.text (body.drop (i + stop.length)))) ∧
      ((∀ body, s = start ++ body → ¬ stop <:+: body) →
        p.skipBlockComment (.text start) (.text stop) (.text s) = p (.text s)) := by
  refine ⟨⟨lexeme_eq hp s, lexeme_lexeme_eq hp s⟩, skipSpaces_eq hp s, fun start => ⟨?_, ?_⟩,
    fun start stop => ⟨?_, ?_⟩⟩
  · rintro body rfl
    exact skipLineComment_append hp start body
  · exact skipLineComment_of_not_prefix hp
  · rintro body i rfl hi
    exact skipBlockComment_of_occursFirst hp hi
  · exact skipBlockComment_of_not_infix hp

theorem Answers.leavesTexts {count : Prop} {O E : Value → Prop} (hp : p.Answers count O E) :
    p.LeavesTexts := by
  intro t r hr
  obtain ⟨heq, hu, -⟩ | ⟨heq, hu, -⟩ | ⟨heq, -, -⟩ := hp t
  · rw [heq] at hr
    exact ⟨_, hu, .inl ⟨_, returns_pure.mp hr⟩⟩
  · rw [heq] at hr
    exact ⟨_, hu, .inr ⟨_, returns_pure.mp hr⟩⟩
  · rw [heq] at hr
    exact absurd hr not_returns_fail

/-- An error that is a marker within a marker, and a comment that is not closed. -/
theorem skipping_keeps_outcome_nestedMarkers :
    (literal (.text "a") (.branch .left (.branch .right .none))).LeavesTexts ∧
      (literal (.text "a") (.branch .left (.branch .right .none))).lexeme (.text " \nb ") =
        pure (.failure (.text "b ") (.branch .left (.branch .right .none))) ∧
      (literal (.text "a") (.branch .left (.branch .right .none))).lexeme (.text "\ta ;") =
        pure (.success (.text ";") (.text "a")) ∧
      (literal (.text "a") (.branch .left (.branch .right .none))).skipBlockComment (.text "/*")
          (.text "*/") (.text "/*a") =
        pure (.failure (.text "/*a") (.branch .left (.branch .right .none))) := by
  have hanswers : (literal (.text "a") (.branch .left (.branch .right .none))).Answers True
      Value.IsText (· = .branch .left (.branch .right .none)) := answers_literal _ _
  have hp := hanswers.leavesTexts
  refine ⟨hp, (skipping_keeps_outcome hp " \nb ").1.1, (skipping_keeps_outcome hp "\ta ;").1.1, ?_⟩
  have hopen : ∀ body, ("/*a" : Text) = "/*" ++ body → ¬ ("*/" : Text) <:+: body := by
    intro body hbody
    have hcut : ("/*" : Text) ++ "a" = "/*" ++ body := hbody
    obtain rfl := List.append_cancel_left hcut
    decide
  exact ((skipping_keeps_outcome hp "/*a").2.2.2 "/*" "*/").2 hopen

end Rule

end ParserCombinators
