import Mathlib.Data.List.DropRight
import ParserCombinators.Text.Lines

/-!
Where a position stands in a text. Line numbers count line feeds, so the lines
they tell apart are the parts of the text between its line feeds, here called
rows. A column counts from the start of its row, and line and column together
tell the position.
-/

namespace ParserCombinators.Text

/-- The parts of a text between its line feeds. -/
def rows (t : Text) : List Text := t.splitOn CodePoint.newline

/-- Where a row starts: after the rows before it and the line feeds that end them. -/
def rowStart (t : Text) (k : Nat) : Nat :=
  ((t.rows.take k).flatMap fun row => row ++ [CodePoint.newline]).length

/-- The code points after the last line feed of a text. -/
def afterNewline (t : Text) : Text := t.rtakeWhile (· != CodePoint.newline)

section Rows

variable {t u : Text}

theorem rows_append_newline (t u : Text) :
    rows (t ++ CodePoint.newline :: u) = rows t ++ rows u :=
  List.splitOn_append_cons_self t u

theorem rows_cons_newline (t : Text) : rows (CodePoint.newline :: t) = [] :: rows t :=
  rows_append_newline [] t

theorem rows_cons {c : CodePoint} (hc : c ≠ CodePoint.newline) (t : Text) :
    rows (c :: t) = (rows t).modifyHead (List.cons c) := by
  rw [rows, List.splitOn_cons_eq_if_modifyHead, if_neg (by simpa using hc)]
  rfl

/-- There is one row more than there are line feeds. -/
theorem length_rows (t : Text) : t.rows.length = t.count CodePoint.newline + 1 := by
  induction t with
  | nil => rfl
  | cons c t ih =>
    by_cases hc : c = CodePoint.newline
    · rw [hc, rows_cons_newline, List.length_cons, ih, List.count_cons_self]
    · rw [rows_cons hc, List.length_modifyHead, ih, List.count_cons_of_ne hc]

/-- The first row begins with whatever the text begins with, up to a line feed. -/
theorem head?_rows (ht : CodePoint.newline ∉ t) (u : Text) :
    ∃ v, (rows (t ++ u)).head? = some (t ++ v) := by
  induction t with
  | nil =>
    obtain ⟨row, others, hrows⟩ := List.exists_cons_of_ne_nil (List.splitOn_ne_nil _ u)
    exact ⟨row, by rw [rows, List.nil_append, hrows]; rfl⟩
  | cons c t ih =>
    obtain ⟨v, hv⟩ := ih fun h => ht (List.mem_cons_of_mem c h)
    have hc : c ≠ CodePoint.newline := fun heq => ht (heq ▸ List.mem_cons_self)
    refine ⟨v, ?_⟩
    rw [List.cons_append, rows_cons hc, List.head?_modifyHead, hv]
    rfl

/-- The rows with their line feeds make up the text and one more line feed. -/
theorem flatMap_rows (t : Text) :
    (t.rows.flatMap fun row => row ++ [CodePoint.newline]) = t ++ [CodePoint.newline] := by
  induction t with
  | nil => rfl
  | cons c t ih =>
    by_cases hc : c = CodePoint.newline
    · rw [hc, rows_cons_newline, List.flatMap_cons, ih]
      rfl
    · obtain ⟨row, others, hrows⟩ :=
        List.exists_cons_of_ne_nil (List.splitOn_ne_nil CodePoint.newline t)
      rw [rows, hrows, List.flatMap_cons] at ih
      rw [rows_cons hc, rows, hrows, List.modifyHead_cons, List.flatMap_cons, List.cons_append,
        List.cons_append, ih, List.cons_append]

theorem afterNewline_of_not_mem (ht : CodePoint.newline ∉ t) : t.afterNewline = t :=
  List.rtakeWhile_eq_self_iff.mpr fun _ hc => bne_iff_ne.mpr fun heq => ht (heq ▸ hc)

theorem afterNewline_append (t : Text) (hu : CodePoint.newline ∉ u) :
    (t ++ CodePoint.newline :: u).afterNewline = u := by
  induction u using List.reverseRecOn with
  | nil => exact List.rtakeWhile_concat_neg _ _ _ (by simp)
  | append_singleton u c ih =>
    have hc : (c != CodePoint.newline) = true := bne_iff_ne.mpr fun heq => hu (by simp [heq])
    have hassoc : t ++ CodePoint.newline :: (u ++ [c]) = (t ++ CodePoint.newline :: u) ++ [c] := by
      simp
    rw [hassoc, afterNewline, List.rtakeWhile_concat_pos (· != CodePoint.newline) _ c hc]
    exact congrArg (· ++ [c]) (ih fun h => hu (List.mem_append_left [c] h))

/-- A text with a line feed has a last one. -/
theorem exists_last_newline (ht : CodePoint.newline ∈ t) :
    ∃ u v, t = u ++ CodePoint.newline :: v ∧ CodePoint.newline ∉ v := by
  obtain ⟨v, u, hreverse, hv⟩ := List.eq_append_cons_of_mem (List.mem_reverse.mpr ht)
  refine ⟨u.reverse, v.reverse, ?_, fun h => hv (List.mem_reverse.mp h)⟩
  rw [← List.reverse_reverse t, hreverse]
  simp

end Rows

section Place

variable {t u : Text}

/-- A text is begun with the rows before its begun row, and with what of this row
comes after the last line feed. -/
theorem row_of_append (t u : Text) :
    ∃ row, (rows (t ++ u))[t.count CodePoint.newline]? = some row ∧
      t.afterNewline.length ≤ row.length ∧
      rowStart (t ++ u) (t.count CodePoint.newline) + t.afterNewline.length = t.length := by
  by_cases ht : CodePoint.newline ∈ t
  · obtain ⟨before, begun, rfl, hbegun⟩ := exists_last_newline ht
    obtain ⟨v, hv⟩ := head?_rows hbegun u
    have hcount : (before ++ CodePoint.newline :: begun).count CodePoint.newline =
        before.rows.length := by
      rw [length_rows, List.count_append, List.count_cons_self,
        List.count_eq_zero_of_not_mem hbegun]
    have hrows : rows (before ++ CodePoint.newline :: begun ++ u) =
        before.rows ++ rows (begun ++ u) := by
      rw [List.append_assoc, List.cons_append, rows_append_newline]
    refine ⟨begun ++ v, ?_, ?_, ?_⟩
    · rw [hcount, hrows, List.getElem?_append_right (Nat.le_refl _), Nat.sub_self,
        ← List.head?_eq_getElem?, hv]
    · rw [afterNewline_append before hbegun, List.length_append]
      omega
    · rw [rowStart, hcount, hrows, List.take_left, flatMap_rows, afterNewline_append before hbegun]
      simp only [List.length_append, List.length_cons, List.length_nil]
      omega
  · obtain ⟨v, hv⟩ := head?_rows ht u
    have hcount := List.count_eq_zero_of_not_mem ht
    refine ⟨t ++ v, ?_, ?_, ?_⟩
    · rw [hcount, ← List.head?_eq_getElem?, hv]
    · rw [afterNewline_of_not_mem ht, List.length_append]
      omega
    · rw [hcount, afterNewline_of_not_mem ht]
      simp [rowStart]

/-- A position stands in a line and a column: the line is that of the line feeds
before the position, and the column counts from the start of the line's row. -/
structure StandsAt (t : Text) (position line column : Nat) : Prop where
  line_eq : line = (t.take position).count CodePoint.newline + 1
  column_pos : 1 ≤ column
  in_row : ∃ row, t.rows[line - 1]? = some row ∧ column ≤ row.length + 1
  position_eq : t.rowStart (line - 1) + column - 1 = position

/-- No other position stands in the same line and column. -/
theorem StandsAt.unique {position position' line column : Nat}
    (h : t.StandsAt position line column) (h' : t.StandsAt position' line column) :
    position' = position :=
  h'.position_eq.symm.trans h.position_eq

theorem before_natCast (t : Text) (position : Nat) : t.before position = t.take position := by
  rw [before, if_neg (by omega), Int.toNat_natCast]

theorem columnAt_natCast {position : Nat} (h : position ≤ t.length) :
    t.columnAt position = ((afterNewline (t.take position)).length + 1 : Nat) := by
  rw [columnAt, lastNewlineBefore, before_natCast, List.length_take_of_le h, afterNewline,
    List.rtakeWhile, List.length_reverse]
  omega

/-- The line and the column that are told of a position are where it stands. -/
theorem exists_standsAt {position : Nat} (h : position ≤ t.length) :
    ∃ line column : Nat, t.lineAt position = line ∧ t.columnAt position = column ∧
      t.StandsAt position line column := by
  obtain ⟨row, hrow, hcolumn, hstart⟩ := row_of_append (t.take position) (t.drop position)
  rw [List.take_append_drop] at hrow hstart
  rw [List.length_take_of_le h] at hstart
  refine ⟨_, _, rfl, columnAt_natCast h, ?_⟩
  rw [lineAt, before_natCast]
  refine ⟨rfl, by omega, ⟨row, ?_, by omega⟩, ?_⟩
  · rw [Nat.add_sub_cancel, hrow]
  · rw [Nat.add_sub_cancel]
    omega

end Place

end ParserCombinators.Text
