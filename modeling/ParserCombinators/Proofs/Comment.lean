import Mathlib.Data.Nat.Find
import ParserCombinators.Proofs.Grammar.Borrow
import ParserCombinators.Proofs.Rule.Text

/-!
Where comments end. A block comment ends at the first place at which its closing
delimiter begins, whatever the delimiters are, and without such a place the whole
text is searched in vain. A line comment ends before the next line feed, and all
line feeds that stand there are consumed with it.
-/

namespace ParserCombinators

open Run

namespace Text

/-- A part begins at a place of a text, and at no place before it. -/
structure OccursFirst (part t : Text) (i : Nat) : Prop where
  here : part <+: t.drop i
  least : ∀ j < i, ¬ part <+: t.drop j

variable {part t : Text} {i j : Nat}

theorem exists_occursFirst (h : part <:+: t) : ∃ i, part.OccursFirst t i := by
  obtain ⟨before, after, rfl⟩ := h
  have hplace : ∃ i, part <+: (before ++ part ++ after).drop i := by
    refine ⟨before.length, after, ?_⟩
    rw [List.append_assoc, List.drop_left]
  exact ⟨Nat.find hplace, Nat.find_spec hplace, fun j hj => Nat.find_min hplace hj⟩

theorem OccursFirst.unique (h : part.OccursFirst t i) (h' : part.OccursFirst t j) : i = j := by
  have hij : ¬ i < j := fun hlt => h'.least i hlt h.here
  have hji : ¬ j < i := fun hlt => h.least j hlt h'.here
  omega

/-- The text around the first occurrence. -/
theorem OccursFirst.eq_append (h : part.OccursFirst t i) :
    t = t.take i ++ (part ++ t.drop (i + part.length)) ∧ (t.take i).length = i := by
  obtain ⟨after, hafter⟩ := h.here
  have hrest : t.drop (i + part.length) = after := by
    rw [← List.drop_drop, ← hafter, List.drop_left]
  have hle : i ≤ t.length := by
    by_contra hgt
    have hnil : t.drop i = [] := List.drop_eq_nil_of_le (by omega)
    rw [hnil] at hafter
    obtain ⟨hpart, -⟩ := List.append_eq_nil_iff.mp hafter
    exact h.least 0 (by omega) (hpart ▸ List.nil_prefix)
  refine ⟨?_, List.length_take_of_le hle⟩
  rw [hrest, hafter, List.take_append_drop]

/-- A part that occurs nowhere begins at no place. -/
theorem not_isPrefix_drop (h : ¬ part <:+: t) (i : Nat) : ¬ part <+: t.drop i := by
  intro hbegins
  exact h (hbegins.isInfix.trans (List.drop_suffix i t).isInfix)

end Text

namespace Rule

section BlockComment

variable {start stop content t : Text} {c : CodePoint}

theorem blockElement_text_cons (h : ¬ stop <+: c :: t) :
    blockElement (.text stop) (.text (c :: t)) = pure (.success (.text t) (.text [c])) := by
  have hnot : ∀ error, (literal (.text stop) (expected (.text stop))).not error (.text (c :: t)) =
      pure (.success (.text (c :: t)) .none) := by
    intro error
    rw [not, literal_text_refuses h]
    rfl
  exact map_of_success (seq_of_success (hnot _) (anything_text_cons c t)) rfl

/-- At the closing delimiter, and where nothing is left, there is no element. -/
theorem blockElement_text_refuses (h : stop <+: t ∨ t = []) :
    ∃ e, blockElement (.text stop) (.text t) = pure (.failure (.text t) e) := by
  by_cases hstop : stop <+: t
  · obtain ⟨u, rfl⟩ := hstop
    have hnot : ∀ error, (literal (.text stop) (expected (.text stop))).not error
        (.text (stop ++ u)) = pure (.failure (.text (stop ++ u)) error) := by
      intro error
      rw [not, literal_text_append]
      rfl
    exact ⟨_, map_of_failure (seq_of_left (hnot _))⟩
  · obtain rfl : t = [] := h.resolve_left hstop
    have hnot : ∀ error, (literal (.text stop) (expected (.text stop))).not error (.text []) =
        pure (.success (.text []) .none) := by
      intro error
      rw [not, literal_text_refuses hstop]
      rfl
    exact ⟨_, map_of_failure (seq_of_right (hnot _) element_text_nil)⟩

/-- The contents are read element by element while the closing delimiter begins at none of them. -/
theorem reads_blockElement (h : ∀ j < content.length, ¬ stop <+: (content ++ t).drop j) :
    Reads (blockElement (.text stop)) (content ++ t) (content.map fun c => [c]) t := by
  induction content with
  | nil => exact .done t
  | cons c content ih =>
    have hfirst : ¬ stop <+: c :: (content ++ t) := h 0 (Nat.succ_pos _)
    have hrest := ih fun j hj => h (j + 1) (Nat.succ_lt_succ hj)
    exact .piece (Nat.lt_succ_self _) (blockElement_text_cons hfirst) hrest

/-- What is read between the delimiters goes on to the first place where the closing
one begins, or to the end of the text. -/
theorem blockContent_text (h : ∀ j < content.length, ¬ stop <+: (content ++ t).drop j)
    (ht : stop <+: t ∨ t = []) :
    (blockElement (.text stop)).manyJoined (.text (content ++ t)) =
      pure (.success (.text t) (.text content)) := by
  obtain ⟨e, he⟩ := blockElement_text_refuses ht
  rw [manyJoined_reads (reads_blockElement h) he, Text.flatten_characters]

theorem blockComment_text_refuses (h : ¬ start <+: t) :
    blockComment (.text start) (.text stop) (.text t) =
      pure (.failure (.text t) (.text ("Expected \x60" ++ start ++ "\x60."))) :=
  mapError_of_failure (surroundedBy_of_left (literal_text_refuses h)) rfl

/-- A comment that is closed at the first place where it can be. -/
theorem blockComment_text_closed (start : Text)
    (h : ∀ j < content.length, ¬ stop <+: (content ++ (stop ++ t)).drop j) :
    blockComment (.text start) (.text stop) (.text (start ++ (content ++ (stop ++ t)))) =
      pure (.success (.text t) (.text content)) := by
  have hcontent := blockContent_text h (.inl (List.prefix_append stop t))
  exact mapError_of_success
    (surroundedBy_of_success (literal_text_append start _) hcontent (literal_text_append stop t))

theorem blockComment_text_of_occursFirst {i : Nat} (h : stop.OccursFirst t i) :
    blockComment (.text start) (.text stop) (.text (start ++ t)) =
      pure (.success (.text (t.drop (i + stop.length))) (.text (t.take i))) := by
  obtain ⟨hsplit, hlength⟩ := h.eq_append
  have hleast : ∀ j < (t.take i).length,
      ¬ stop <+: (t.take i ++ (stop ++ t.drop (i + stop.length))).drop j := by
    rw [hlength, ← hsplit]
    exact h.least
  have hclosed := blockComment_text_closed start hleast
  rw [← hsplit] at hclosed
  exact hclosed

theorem blockComment_text_unclosed (h : ¬ stop <:+: t) :
    blockComment (.text start) (.text stop) (.text (start ++ t)) =
      pure (.failure (.text [])
        (.text ("Expected \x60" ++ stop ++ "\x60 to close the block comment."))) := by
  have hnowhere : ∀ j < t.length, ¬ stop <+: (t ++ []).drop j := by
    intro j _
    rw [List.append_nil]
    exact Text.not_isPrefix_drop h j
  have hcontent := blockContent_text hnowhere (.inr rfl)
  have hend : ¬ stop <+: [] := by
    rw [List.prefix_nil]
    rintro rfl
    exact h List.nil_infix
  rw [List.append_nil] at hcontent
  exact mapError_of_failure (surroundedBy_of_right (literal_text_append start t) hcontent
    (literal_text_refuses hend)) rfl

end BlockComment

section LineComment

variable {start line feeds t : Text}

theorem lineComment_text_refuses (h : ¬ start <+: t) :
    lineComment (.text start) (.text t) =
      pure (.failure (.text t) (.text ("Expected \x60" ++ start ++ "\x60."))) :=
  mapError_of_failure (surroundedBy_of_left (literal_text_refuses h)) rfl

theorem lineContent_text (hline : ∀ c ∈ line, c ≠ CodePoint.newline)
    (ht : ∀ c, t.head? = some c → c = CodePoint.newline) :
    lineContent (.text (line ++ t)) = pure (.success (.text t) (.text line)) := by
  refine manyJoined_elements (fun c hc => ?_) fun c hc => ?_
  · simp [Value.equals_character, hline c hc]
  · simp [Value.equals_character, ht c hc]

theorem newlines_text (hfeeds : ∀ c ∈ feeds, c = CodePoint.newline)
    (ht : ∀ c, t.head? = some c → c ≠ CodePoint.newline) :
    newline.manyQuietly (.text (feeds ++ t)) =
      pure (.success (.text t) (.list (feeds.map fun c => .text [c]))) :=
  manyQuietly_elements (fun c hc => by simp [Value.equals_character, hfeeds c hc])
    fun c hc => by simp [Value.equals_character, ht c hc]

/-- A line comment with the line feeds after it. -/
theorem lineComment_text (start : Text) (hline : ∀ c ∈ line, c ≠ CodePoint.newline)
    (hfeeds : ∀ c ∈ feeds, c = CodePoint.newline)
    (hends : ∀ c, (feeds ++ t).head? = some c → c = CodePoint.newline)
    (ht : ∀ c, t.head? = some c → c ≠ CodePoint.newline) :
    lineComment (.text start) (.text (start ++ (line ++ (feeds ++ t)))) =
      pure (.success (.text t) (.text line)) := by
  have hline := lineContent_text hline hends
  have hfeeds := newlines_text hfeeds ht
  exact mapError_of_success
    (surroundedBy_of_success (literal_text_append start _) hline hfeeds)

theorem lineComment_text_append (start t : Text) :
    lineComment (.text start) (.text (start ++ t)) =
      pure (.success
        (.text ((t.dropWhile (· != CodePoint.newline)).dropWhile (· == CodePoint.newline)))
        (.text (t.takeWhile (· != CodePoint.newline)))) := by
  obtain ⟨hsplit, hline, hends⟩ := Text.takeWhile_dropWhile (· != CodePoint.newline) t
  generalize t.takeWhile (· != CodePoint.newline) = line at hsplit hline ⊢
  generalize t.dropWhile (· != CodePoint.newline) = tail at hsplit hends ⊢
  -- What follows the line is its line feeds and something that begins with none.
  obtain ⟨htail, hfeeds, hrest⟩ := Text.takeWhile_dropWhile (· == CodePoint.newline) tail
  generalize tail.takeWhile (· == CodePoint.newline) = feeds at htail hfeeds
  generalize tail.dropWhile (· == CodePoint.newline) = rest at htail hrest ⊢
  subst hsplit htail
  exact lineComment_text start (fun c hc => by simpa using hline c hc)
    (fun c hc => by simpa using hfeeds c hc) (fun c hc => by simpa using hends c hc)
    fun c hc => by simpa using hrest c hc

end LineComment

end Rule

namespace Grammar

/-- A comment fails where its opening delimiter does not begin. A block comment ends
at the first place where its closing delimiter begins and fails at the end of the
text if there is none. A line comment holds all that comes before the next line feed. -/
theorem run_comment_ends (start input : Text) (depth : Nat) :
    (¬ start <+: input →
      (∀ stop : Text, (leaf (.blockComment (.text start) (.text stop))).run depth (.text input) =
        pure (.failure (.text input) (.text ("Expected \x60" ++ start ++ "\x60.")))) ∧
      (leaf (.lineComment (.text start))).run depth (.text input) =
        pure (.failure (.text input) (.text ("Expected \x60" ++ start ++ "\x60.")))) ∧
    ∀ body, input = start ++ body →
      (∀ stop : Text,
        (stop <:+: body → ∃ i, stop.OccursFirst body i ∧
          (leaf (.blockComment (.text start) (.text stop))).run depth (.text input) =
            pure (.success (.text (body.drop (i + stop.length))) (.text (body.take i)))) ∧
        (¬ stop <:+: body →
          (leaf (.blockComment (.text start) (.text stop))).run depth (.text input) =
            pure (.failure (.text [])
              (.text ("Expected \x60" ++ stop ++ "\x60 to close the block comment."))))) ∧
      (leaf (.lineComment (.text start))).run depth (.text input) =
        pure (.success
          (.text ((body.dropWhile (· != CodePoint.newline)).dropWhile (· == CodePoint.newline)))
          (.text (body.takeWhile (· != CodePoint.newline)))) := by
  simp only [run_leaf]
  refine ⟨fun hstart => ⟨fun stop => Rule.blockComment_text_refuses hstart,
    Rule.lineComment_text_refuses hstart⟩, ?_⟩
  rintro body rfl
  refine ⟨fun stop => ⟨fun hstop => ?_, Rule.blockComment_text_unclosed⟩, ?_⟩
  · obtain ⟨i, hi⟩ := Text.exists_occursFirst hstop
    exact ⟨i, hi, Rule.blockComment_text_of_occursFirst hi⟩
  · exact Rule.lineComment_text_append start body

/-- Delimiters that overlap: the slash of the opening one closes no comment, and of
three stars in a row the last one belongs to the closing delimiter. -/
theorem run_comment_ends_overlap :
    ¬ ("/*" : Text) <+: "//" ∧ ("*/" : Text) <:+: "/***/x" ∧ ¬ ("*/" : Text) <:+: "/" ∧
      (leaf (.blockComment (.text "/*") (.text "*/"))).run 0 (.text "//") =
        pure (.failure (.text "//") (.text "Expected \x60/*\x60.")) ∧
      (leaf (.blockComment (.text "/*") (.text "*/"))).run 0 (.text "/*/***/x") =
        pure (.success (.text "x") (.text "/**")) ∧
      (leaf (.blockComment (.text "/*") (.text "*/"))).run 0 (.text "/*/") =
        pure (.failure (.text []) (.text "Expected \x60*/\x60 to close the block comment.")) := by
  have hmissing : ¬ ("/*" : Text) <+: "//" := by decide
  have hclosed : ("*/" : Text) <:+: "/***/x" := ⟨"/**", "x", rfl⟩
  have hopen : ¬ ("*/" : Text) <:+: "/" := by decide
  have hfirst : ("*/" : Text).OccursFirst "/***/x" 3 := ⟨by decide, by decide⟩
  refine ⟨hmissing, hclosed, hopen, ((run_comment_ends "/*" "//" 0).1 hmissing).1 "*/", ?_,
    (((run_comment_ends "/*" "/*/" 0).2 "/" rfl).1 "*/").2 hopen⟩
  obtain ⟨i, hi, hrun⟩ := (((run_comment_ends "/*" "/*/***/x" 0).2 "/***/x" rfl).1 "*/").1 hclosed
  obtain rfl : i = 3 := hi.unique hfirst
  exact hrun

end Grammar

end ParserCombinators
