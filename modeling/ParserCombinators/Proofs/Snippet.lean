import ParserCombinators.Proofs.Reporting
import ParserCombinators.Proofs.Text.LineBreaks

/-!
The snippet in a note on a position of a text. A snippet is the part of a line around
an offset, with a caret under the character at the offset or behind the end of the line.
The line is looked up by its number among all lines of the text, though the number
counts line feeds alone. So the snippet is of the line that holds the position as long as
no other boundary ends a line before it, and of an earlier line if one does.
-/

namespace ParserCombinators

namespace Report

/-- A report with one more note. -/
def withNote (report : Report) (note : Text) : Report :=
  { report with notes := report.notes ++ [note] }

/-- A note that shows a snippet below a place, and a caret behind some blanks below it. -/
def shownNote (place snippet : Text) (blanks : Nat) : Text :=
  Text.joinWith [CodePoint.newline]
    [place, snippet, List.replicate blanks CodePoint.space ++ "^"]

/-- A position of a text with its line and its column, in words. -/
def placeWords (position line column : Nat) : Text :=
  "At position " ++ Text.ofNat position ++ " (line " ++ Text.ofNat line ++
    ", column " ++ Text.ofNat column ++ ")"

/-- A caret behind some blanks points at an offset of a line, of which the snippet
is a part: it stands under the character at the offset, or behind the snippet if
the line ends there. -/
structure PointsAt (line : Text) (offset : Nat) (snippet : Text) (blanks : Nat) : Prop where
  part : ∃ left right, line = left ++ (snippet ++ right) ∧ left.length + blanks = offset
  width : snippet.length ≤ snippetWidth
  within : offset < line.length → blanks < snippet.length
  past : offset = line.length → blanks = snippet.length

section Snippet

variable {line snippet : Text} {offset blanks : Nat}

theorem PointsAt.isInfix (h : PointsAt line offset snippet blanks) : snippet <:+: line := by
  obtain ⟨left, right, hline, -⟩ := h.part
  exact ⟨left, right, by rw [hline, List.append_assoc]⟩

/-- The caret stands under the character at the offset. -/
theorem PointsAt.getElem? {row : Text} (h : PointsAt row offset snippet blanks)
    (hoffset : offset < row.length) : snippet[blanks]? = row[offset]? := by
  obtain ⟨left, right, hrow, hlength⟩ := h.part
  rw [hrow, ← hlength, List.getElem?_append_right (Nat.le_add_right _ _), Nat.add_sub_cancel_left,
    List.getElem?_append_left (h.within hoffset)]

theorem two_le_snippetWidth : 2 ≤ snippetWidth := by decide

/-- The window at the begin of a line shows every offset in its first half. -/
theorem pointsAt_take (hhalf : offset + 1 ≤ snippetWidth / 2) :
    PointsAt line offset (line.take snippetWidth) offset := by
  have hlength : (line.take snippetWidth).length = min snippetWidth line.length :=
    List.length_take
  refine ⟨⟨[], line.drop snippetWidth, ?_, ?_⟩, List.length_take_le _ _, ?_, ?_⟩
  · rw [List.nil_append, List.take_append_drop]
  · rw [List.length_nil, Nat.zero_add]
  · omega
  · omega

/-- The window that begins half a width before an offset shows the offset in its middle. -/
theorem pointsAt_drop (hhalf : snippetWidth / 2 < offset + 1) (hoffset : offset ≤ line.length) :
    PointsAt line offset ((line.drop (offset + 1 - snippetWidth / 2)).take snippetWidth)
      (snippetWidth / 2 - 1) := by
  have hwidth := two_le_snippetWidth
  have hlength : ((line.drop (offset + 1 - snippetWidth / 2)).take snippetWidth).length =
      min snippetWidth (line.length - (offset + 1 - snippetWidth / 2)) := by
    rw [List.length_take, List.length_drop]
  have hskipped : (line.take (offset + 1 - snippetWidth / 2)).length =
      offset + 1 - snippetWidth / 2 := List.length_take_of_le (by omega)
  refine ⟨⟨line.take (offset + 1 - snippetWidth / 2),
    (line.drop (offset + 1 - snippetWidth / 2)).drop snippetWidth, ?_, ?_⟩,
    List.length_take_le _ _, ?_, ?_⟩
  · rw [List.take_append_drop, List.take_append_drop]
  · omega
  · omega
  · omega

/-- Up to its end, a line has a snippet for every offset. -/
theorem exists_snippet (hoffset : offset ≤ line.length) :
    ∃ snippet blanks, PointsAt line offset snippet blanks ∧
      snippet? line (offset + 1 : Nat) = some (snippet ++ [CodePoint.newline] ++
        (List.replicate blanks CodePoint.space ++ "^")) := by
  have hreach : ((offset + 1 : Nat) : Int) - 1 ≤ line.length := by omega
  by_cases hhalf : offset + 1 ≤ snippetWidth / 2
  · have hleft : ((offset + 1 : Nat) : Int) ≤ ((snippetWidth / 2 : Nat) : Int) := by omega
    have hblanks : (((offset + 1 : Nat) : Int) - 1).toNat = offset := by omega
    refine ⟨_, _, pointsAt_take hhalf, ?_⟩
    rw [snippet?, if_pos hreach, if_pos hleft, caret, hblanks]
  · have hright : ¬ ((offset + 1 : Nat) : Int) ≤ ((snippetWidth / 2 : Nat) : Int) := by omega
    have hstart : (((offset + 1 : Nat) : Int) - ((snippetWidth / 2 : Nat) : Int)).toNat =
        offset + 1 - snippetWidth / 2 := by omega
    have hblanks : (((snippetWidth / 2 : Nat) : Int) - 1).toNat = snippetWidth / 2 - 1 := by omega
    refine ⟨_, _, pointsAt_drop (by omega) hoffset, ?_⟩
    rw [snippet?, if_pos hreach, if_neg hright, hstart, caret, hblanks]

/-- Past its end, a line has no snippet. -/
theorem snippet?_eq_none (hoffset : line.length < offset) :
    snippet? line (offset + 1 : Nat) = none := by
  have hreach : ¬ ((offset + 1 : Nat) : Int) - 1 ≤ line.length := by omega
  rw [snippet?, if_neg hreach]

end Snippet

section Note

variable {report : Report} {source : Text} {position : Nat}

/-- The note on a position of a text tells its place, and shows a snippet of the line
with the number that is one more than the line feeds before it. -/
theorem appendNote_text (hsource : report.source = .text source)
    (hposition : position ≤ source.length) :
    report.appendNote position .none = pure (report.withNote
      (Text.joinWith [CodePoint.newline] (placeNote source position ::
        (source.lines[(source.take position).count CodePoint.newline]?.bind
          (snippet? · ((Text.afterNewline (source.take position)).length + 1 : Nat))).toList))) := by
  have hmin : min (position : Int) (source.length : Int) = position := by omega
  have hline : source.lineAt position - 1 = (source.take position).count CodePoint.newline := by
    rw [Text.lineAt, Text.before_natCast, Nat.add_sub_cancel]
  simp only [appendNote, hsource, positionNote, hmin, hline, Text.columnAt_natCast hposition,
    pure_bind, withNote]

theorem appendNote_none (hsource : report.source = .text source)
    (hposition : position ≤ source.length)
    (hshown : source.lines[(source.take position).count CodePoint.newline]?.bind
      (snippet? · ((Text.afterNewline (source.take position)).length + 1 : Nat)) = none) :
    report.appendNote position .none = pure (report.withNote (placeNote source position)) := by
  rw [appendNote_text hsource hposition, hshown]
  rfl

theorem appendNote_some {line : Text} (hsource : report.source = .text source)
    (hposition : position ≤ source.length)
    (hline : source.lines[(source.take position).count CodePoint.newline]? = some line)
    (hoffset : (Text.afterNewline (source.take position)).length ≤ line.length) :
    ∃ snippet blanks,
      report.appendNote position .none =
        pure (report.withNote (shownNote (placeNote source position) snippet blanks)) ∧
      PointsAt line (Text.afterNewline (source.take position)).length snippet blanks := by
  obtain ⟨snippet, blanks, hpoints, hshown⟩ := exists_snippet hoffset
  refine ⟨snippet, blanks, ?_, hpoints⟩
  rw [appendNote_text hsource hposition, hline, Option.bind_some, hshown]
  simp [Text.joinWith, shownNote]

end Note

section LineAround

variable {report : Report} {source before line stop after : Text} {position : Nat}

/-- A position that has no snippet: it is on the empty line at the end of a text, or
between the two characters that end a line. -/
def Unshown (before line stop : Text) (position : Nat) : Prop :=
  line = [] ∧ stop = [] ∨
    stop = [CodePoint.carriageReturn, CodePoint.newline] ∧
      position = before.length + line.length + 1

theorem length_afterNewline_of_lineAround
    (h : Text.LineAround source position before line stop after) :
    (Text.afterNewline (source.take position)).length = position - before.length := by
  obtain ⟨begun, htake, hbegun, hlength⟩ := h.exists_begun
  rw [htake, Text.afterNewline_append_of_endsRow h.begins hbegun, hlength]

theorem appendNote_of_unshown (hsource : report.source = .text source)
    (hstray : Text.strayBreaks source = 0) (hposition : position ≤ source.length)
    (h : Text.LineAround source position before line stop after)
    (hunshown : Unshown before line stop position) :
    report.appendNote position .none = pure (report.withNote (placeNote source position)) := by
  refine appendNote_none hsource hposition ?_
  rw [h.getElem?_lines hstray, length_afterNewline_of_lineAround h]
  split_ifs with hempty
  · rfl
  · obtain ⟨-, heq⟩ := hunshown.resolve_left hempty
    exact snippet?_eq_none (by omega)

theorem appendNote_of_shown (hsource : report.source = .text source)
    (hstray : Text.strayBreaks source = 0) (hposition : position ≤ source.length)
    (h : Text.LineAround source position before line stop after)
    (hshown : ¬ Unshown before line stop position) :
    ∃ snippet blanks,
      report.appendNote position .none =
        pure (report.withNote (shownNote (placeNote source position) snippet blanks)) ∧
      PointsAt line (position - before.length) snippet blanks := by
  have hline := h.getElem?_lines hstray
  rw [if_neg fun hempty => hshown (.inl hempty)] at hline
  have hlength := length_afterNewline_of_lineAround h
  have hoffset : position ≤ before.length + line.length :=
    h.position_le.resolve_right fun hpair => hshown (.inr hpair)
  rw [← hlength]
  exact appendNote_some hsource hposition hline (by omega)

/-- In a text without stray boundaries every position has its line, and the caret of its
note points at it there. Only on the empty line at the end of the text and between the
two characters that end a line there is no snippet. -/
theorem appendNote_pointsAt (hsource : report.source = .text source)
    (hstray : Text.strayBreaks source = 0) (hposition : position ≤ source.length) :
    (∃ before line stop after, Text.LineAround source position before line stop after) ∧
    ∀ before line stop after, Text.LineAround source position before line stop after →
      (Unshown before line stop position →
        report.appendNote position .none = pure (report.withNote (placeNote source position))) ∧
      (¬ Unshown before line stop position →
        ∃ snippet blanks,
          report.appendNote position .none =
            pure (report.withNote (shownNote (placeNote source position) snippet blanks)) ∧
          PointsAt line (position - before.length) snippet blanks ∧
          (position < before.length + line.length → snippet[blanks]? = source[position]?)) := by
  refine ⟨Text.exists_lineAround hstray hposition, fun before line stop after h => ⟨?_, ?_⟩⟩
  · exact appendNote_of_unshown hsource hstray hposition h
  · intro hshown
    obtain ⟨snippet, blanks, hnote, hpoints⟩ :=
      appendNote_of_shown hsource hstray hposition h hshown
    refine ⟨snippet, blanks, hnote, hpoints, fun hlt => ?_⟩
    have hstart := h.start_le
    have hoffset : position - before.length < line.length := by omega
    rw [hpoints.getElem? hoffset, h.split, List.getElem?_append_right hstart,
      List.getElem?_append_left hoffset]

/-- The report of an error in the second of two lines. -/
def secondLine : Report := ⟨"", .text "a\r\nbc", 4, .text "", []⟩

theorem appendNote_pointsAt_secondLine :
    secondLine.source = .text "a\r\nbc" ∧ Text.strayBreaks "a\r\nbc" = 0 ∧
      4 ≤ ("a\r\nbc" : Text).length ∧
      Text.LineAround "a\r\nbc" 4 "a\r\n" "bc" [] [] ∧
      ∃ snippet blanks,
        secondLine.appendNote (4 : Nat) .none =
          pure (secondLine.withNote (shownNote (placeNote "a\r\nbc" 4) snippet blanks)) ∧
        PointsAt "bc" 1 snippet blanks ∧ snippet[blanks]? = some (CodePoint.ofChar 'c') := by
  have hsource : secondLine.source = .text "a\r\nbc" := rfl
  have hstray : Text.strayBreaks "a\r\nbc" = 0 := by decide
  have hposition : 4 ≤ ("a\r\nbc" : Text).length := by decide
  have hline : Text.LineAround "a\r\nbc" 4 "a\r\n" "bc" [] [] := by
    refine ⟨rfl, ?_, by decide, .inr (.inr ⟨rfl, rfl⟩), by decide, .inl (by decide)⟩
    exact Text.endsRow_iff.mpr (.inr ⟨"a\r", rfl⟩)
  have hshown : ¬ Unshown "a\r\n" "bc" [] 4 := by
    rintro (⟨h, -⟩ | ⟨h, -⟩)
    · cases h
    · cases h
  obtain ⟨snippet, blanks, hnote, hpoints, hcaret⟩ :=
    ((appendNote_pointsAt hsource hstray hposition).2 _ _ _ _ hline).2 hshown
  exact ⟨hsource, hstray, hposition, hline, snippet, blanks, hnote, hpoints, hcaret (by decide)⟩

end LineAround

section Row

variable {report : Report} {source row : Text} {position : Nat}

theorem placeNote_of_lineAt {line column : Nat} (hline : source.lineAt position = line)
    (hcolumn : source.columnAt position = column) :
    placeNote source position = placeWords position line column := by
  rw [placeNote, hline, hcolumn, Text.ofInt_natCast, Text.ofInt_natCast, placeWords]

/-- The line that a snippet is taken from is a part of the row that holds the position,
or a line before it. -/
theorem isInfix_of_getElem?_lines {line : Text}
    (hrow : source.rows[(source.take position).count CodePoint.newline]? = some row)
    (hline : source.lines[(source.take position).count CodePoint.newline]? = some line) :
    (Text.strayBreaks (Text.completeRows (source.take position)) = 0 → line <:+: row) ∧
    (Text.strayBreaks (Text.completeRows (source.take position)) ≠ 0 →
      line ∈ Text.lines (Text.completeRows (source.take position))) := by
  have hsplit := Text.completeRows_append_afterNewline (source.take position)
  have hrows := Text.endsRow_completeRows (source.take position)
  have hbegun := Text.not_mem_afterNewline (source.take position)
  generalize Text.completeRows (source.take position) = before at hsplit hrows ⊢
  generalize Text.afterNewline (source.take position) = begun at hsplit hbegun
  have hsource : source = before ++ (begun ++ source.drop position) := by
    rw [← List.append_assoc, hsplit, List.take_append_drop]
  have hcount : (source.take position).count CodePoint.newline = before.count CodePoint.newline := by
    rw [← hsplit, List.count_append, List.count_eq_zero_of_not_mem hbegun, Nat.add_zero]
  rw [hcount] at hrow hline
  -- Both are looked up at one number, which skips all lines before the row or too few.
  constructor
  · intro hstray
    rw [hsource, Text.getElem?_rows_append hrows] at hrow
    rw [hsource, Text.getElem?_lines_append hrows hstray] at hline
    obtain ⟨row', hrow', hbegins⟩ := Text.exists_head_rows_of_head_lines hline
    obtain rfl : row' = row := Option.some.inj (hrow'.symm.trans hrow)
    exact hbegins.isInfix
  · intro hstray
    obtain ⟨earlier, hmem, hearlier⟩ :=
      Text.exists_line_of_strayBreaks hrows hstray (begun ++ source.drop position)
    rw [← hsource] at hearlier
    obtain rfl : earlier = line := Option.some.inj (hearlier.symm.trans hline)
    exact hmem

/-- Line and column of a note tell where the position stands. The snippet is of the row
that the line number names if no stray boundary comes before this row, and of a line
before the row if one does. -/
theorem appendNote_row (hsource : report.source = .text source)
    (hposition : position ≤ source.length) :
    ∃ (line column : Nat) (row : Text), source.StandsAt position line column ∧
      source.rows[line - 1]? = some row ∧
      (report.appendNote position .none =
          pure (report.withNote (placeWords position line column)) ∨
        ∃ snippet blanks,
          report.appendNote position .none =
            pure (report.withNote (shownNote (placeWords position line column) snippet blanks)) ∧
          (Text.strayBreaks (Text.completeRows (source.take position)) = 0 → snippet <:+: row) ∧
          (Text.strayBreaks (Text.completeRows (source.take position)) ≠ 0 →
            ∃ earlier ∈ Text.lines (Text.completeRows (source.take position)),
              snippet <:+: earlier)) := by
  obtain ⟨line, column, hline, hcolumn, hstands⟩ := Text.exists_standsAt hposition
  obtain ⟨row, hrow, -⟩ := hstands.in_row
  refine ⟨line, column, row, hstands, hrow, ?_⟩
  rw [hstands.line_eq, Nat.add_sub_cancel] at hrow
  rw [← placeNote_of_lineAt hline hcolumn]
  cases hshown : source.lines[(source.take position).count CodePoint.newline]? with
  | none =>
    left
    exact appendNote_none hsource hposition (by rw [hshown, Option.bind_none])
  | some shown =>
    by_cases hoffset : (Text.afterNewline (source.take position)).length ≤ shown.length
    · right
      obtain ⟨snippet, blanks, hnote, hpoints⟩ :=
        appendNote_some hsource hposition hshown hoffset
      obtain ⟨hrowed, hearlier⟩ := isInfix_of_getElem?_lines hrow hshown
      exact ⟨snippet, blanks, hnote, fun hstray => hpoints.isInfix.trans (hrowed hstray),
        fun hstray => ⟨shown, hearlier hstray, hpoints.isInfix⟩⟩
    · left
      refine appendNote_none hsource hposition ?_
      rw [hshown, Option.bind_some, snippet?_eq_none (by omega)]

/-- The report of an error in the second row of a text, whose first row holds a carriage
return. -/
def secondRow : Report := ⟨"", .text "a\rb\nc", 4, .text "", []⟩

theorem appendNote_row_secondRow :
    secondRow.source = .text "a\rb\nc" ∧ 4 ≤ ("a\rb\nc" : Text).length ∧
    ∃ (line column : Nat) (row : Text), Text.StandsAt "a\rb\nc" 4 line column ∧
      (Text.rows "a\rb\nc")[line - 1]? = some row ∧
      (secondRow.appendNote (4 : Nat) .none =
          pure (secondRow.withNote (placeWords 4 line column)) ∨
        ∃ snippet blanks,
          secondRow.appendNote (4 : Nat) .none =
            pure (secondRow.withNote (shownNote (placeWords 4 line column) snippet blanks)) ∧
          ∃ earlier ∈ Text.lines "a\rb\n", snippet <:+: earlier) := by
  have hsource : secondRow.source = .text "a\rb\nc" := rfl
  have hposition : 4 ≤ ("a\rb\nc" : Text).length := by decide
  have hrows : Text.completeRows (List.take 4 ("a\rb\nc" : Text)) = "a\rb\n" := by decide
  obtain ⟨line, column, row, hstands, hrow, hnote⟩ := appendNote_row hsource hposition
  refine ⟨hsource, hposition, line, column, row, hstands, hrow, ?_⟩
  rcases hnote with hnote | ⟨snippet, blanks, hnote, -, hearlier⟩
  · exact .inl hnote
  · rw [hrows] at hearlier
    exact .inr ⟨snippet, blanks, hnote, hearlier (by decide)⟩

/-- The line number of the note names the row of the position, but the snippet is of the
row before it. -/
theorem appendNote_secondRow :
    secondRow.appendNote (4 : Nat) .none =
        pure (secondRow.withNote (shownNote (placeWords 4 2 1) "b" 0)) ∧
      (Text.rows "a\rb\nc")[1]? = some ("c" : Text) ∧ ¬ ("b" : Text) <:+: "c" := by
  have hposition : 4 ≤ ("a\rb\nc" : Text).length := by decide
  have hlines : Text.lines "a\rb\nc" = ["a", "b", "c"] := by decide
  refine ⟨?_, by decide, by decide⟩
  have hplace : placeNote "a\rb\nc" (4 : Nat) = placeWords 4 2 1 :=
    placeNote_of_lineAt (by decide) (by decide)
  rw [appendNote_text rfl hposition, hplace, hlines]
  rfl

end Row

end Report

end ParserCombinators
