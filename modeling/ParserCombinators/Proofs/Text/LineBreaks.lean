import Mathlib.Data.List.TakeWhile
import ParserCombinators.Proofs.Text.Place

/-!
Where the lines of a text begin and end. A text is cut at every line boundary, but
rows end at line feeds alone. Up to the end of a row there are as many lines as rows
and one more for every stray boundary, which is neither a line feed nor a carriage
return before one. So the lines of a text tell its rows as long as no boundary is stray.
-/

namespace ParserCombinators.Text

/-- The number of line boundaries that are neither a line feed nor a carriage
return before one. -/
def strayBreaks : Text → Nat
  | [] => 0
  | c :: t =>
    (if c.isLineBoundary = true ∧ c ≠ CodePoint.newline ∧
        ¬ (c = CodePoint.carriageReturn ∧ t.head? = some CodePoint.newline) then 1 else 0) +
      strayBreaks t

/-- A text that is empty or ends with a line feed. -/
def EndsRow (t : Text) : Prop := ∀ c, t.getLast? = some c → c = CodePoint.newline

/-- The rows of a text that are complete, with their line feeds. -/
def completeRows (t : Text) : Text := t.rdropWhile (· != CodePoint.newline)

section Boundaries

variable {c : CodePoint} {line rest t u : Text}

theorem isLineBoundary_newline : CodePoint.newline.isLineBoundary = true := by decide

theorem isLineBoundary_carriageReturn : CodePoint.carriageReturn.isLineBoundary = true := by decide

theorem newline_ne_carriageReturn : CodePoint.newline ≠ CodePoint.carriageReturn := by decide

/-- A carriage return and the line feed after it are one boundary. -/
theorem linesFrom_pair (line rest : Text) :
    linesFrom line (CodePoint.carriageReturn :: CodePoint.newline :: rest) =
      line :: linesFrom [] rest := by
  rw [linesFrom, if_pos ⟨rfl, rfl⟩]

theorem linesFrom_boundary (hc : c.isLineBoundary = true)
    (hpair : ¬ (c = CodePoint.carriageReturn ∧ rest.head? = some CodePoint.newline))
    (line : Text) : linesFrom line (c :: rest) = line :: linesFrom [] rest := by
  cases rest with
  | nil => simp [linesFrom, hc]
  | cons d rest =>
    have hnot : ¬ (c = CodePoint.carriageReturn ∧ d = CodePoint.newline) := by
      rintro ⟨rfl, rfl⟩
      exact hpair ⟨rfl, rfl⟩
    rw [linesFrom, if_neg hnot, if_pos hc]

theorem linesFrom_character (hc : c.isLineBoundary = false) (line rest : Text) :
    linesFrom line (c :: rest) = linesFrom (line ++ [c]) rest := by
  cases rest with
  | nil => simp [linesFrom, hc]
  | cons d rest =>
    have hnot : ¬ (c = CodePoint.carriageReturn ∧ d = CodePoint.newline) := by
      rintro ⟨rfl, -⟩
      exact absurd hc (by decide)
    rw [linesFrom, if_neg hnot, hc]
    rfl

/-- A text is read boundary by boundary, a carriage return with the line feed after it. -/
theorem lines_induction {motive : Text → Prop} (nil : motive [])
    (pair : ∀ rest, motive rest →
      motive (CodePoint.carriageReturn :: CodePoint.newline :: rest))
    (boundary : ∀ c rest, c.isLineBoundary = true →
      ¬ (c = CodePoint.carriageReturn ∧ rest.head? = some CodePoint.newline) →
      motive rest → motive (c :: rest))
    (character : ∀ c rest, c.isLineBoundary = false → motive rest → motive (c :: rest))
    (t : Text) : motive t := by
  cases t with
  | nil => exact nil
  | cons c rest =>
    by_cases hc : c.isLineBoundary = true
    · by_cases hpair : c = CodePoint.carriageReturn ∧ rest.head? = some CodePoint.newline
      · obtain ⟨rfl, hhead⟩ := hpair
        obtain ⟨rest, rfl⟩ := List.head?_eq_some_iff.mp hhead
        exact pair rest (lines_induction nil pair boundary character rest)
      · exact boundary c rest hc hpair (lines_induction nil pair boundary character rest)
    · exact character c rest (Bool.eq_false_iff.mpr hc)
        (lines_induction nil pair boundary character rest)
termination_by t.length

end Boundaries

section EndsRow

variable {c : CodePoint} {line rest t u : Text}

theorem EndsRow.tail (h : EndsRow (c :: rest)) : EndsRow rest := by
  intro d hd
  refine h d ?_
  cases rest with
  | nil => cases hd
  | cons e rest => rw [List.getLast?_cons_cons, hd]

/-- Only a line feed can be the last character. -/
theorem EndsRow.ne_nil (h : EndsRow (c :: rest)) (hc : c ≠ CodePoint.newline) : rest ≠ [] := by
  rintro rfl
  exact hc (h c rfl)

/-- What is put behind a complete row does not pair with its last character. -/
theorem EndsRow.pair_append_iff (h : EndsRow (c :: rest)) (u : Text) :
    (c = CodePoint.carriageReturn ∧ (rest ++ u).head? = some CodePoint.newline) ↔
      c = CodePoint.carriageReturn ∧ rest.head? = some CodePoint.newline := by
  cases rest with
  | nil =>
    obtain rfl : c = CodePoint.newline := h c rfl
    have hne := newline_ne_carriageReturn
    simp [hne]
  | cons d rest => rfl

theorem linesFrom_append (ht : EndsRow t) (hline : line = [] ∨ t ≠ []) (u : Text) :
    linesFrom line (t ++ u) = linesFrom line t ++ linesFrom [] u := by
  -- A begun line must end within the text, so the text is not empty where one is begun.
  induction t using lines_induction generalizing line with
  | nil =>
    obtain rfl : line = [] := hline.resolve_right (not_not_intro rfl)
    rfl
  | pair rest ih =>
    have hrest := ih ht.tail.tail (.inl rfl)
    rw [List.cons_append, List.cons_append, linesFrom_pair, linesFrom_pair, hrest,
      List.cons_append]
  | boundary c rest hc hpair ih =>
    have hpair' := (ht.pair_append_iff u).not.mpr hpair
    rw [List.cons_append, linesFrom_boundary hc hpair', linesFrom_boundary hc hpair,
      ih ht.tail (.inl rfl), List.cons_append]
  | character c rest hc ih =>
    have hne : rest ≠ [] := ht.ne_nil fun heq => absurd hc (by rw [heq]; decide)
    rw [List.cons_append, linesFrom_character hc, linesFrom_character hc, ih ht.tail (.inr hne)]

/-- Complete rows have the lines that they have by themselves. -/
theorem lines_append (ht : EndsRow t) (u : Text) : lines (t ++ u) = lines t ++ lines u :=
  linesFrom_append ht (.inl rfl) u

theorem length_linesFrom (ht : EndsRow t) (hline : line = [] ∨ t ≠ []) :
    (linesFrom line t).length = t.count CodePoint.newline + t.strayBreaks := by
  induction t using lines_induction generalizing line with
  | nil =>
    obtain rfl : line = [] := hline.resolve_right (not_not_intro rfl)
    rfl
  | pair rest ih =>
    have hrest := ih ht.tail.tail (.inl rfl)
    have hcount : (CodePoint.carriageReturn :: CodePoint.newline :: rest).count
        CodePoint.newline = rest.count CodePoint.newline + 1 := by
      rw [List.count_cons_of_ne newline_ne_carriageReturn.symm, List.count_cons_self]
    have hstray : strayBreaks (CodePoint.carriageReturn :: CodePoint.newline :: rest) =
        strayBreaks rest := by
      simp [strayBreaks]
    rw [linesFrom_pair, List.length_cons, hrest, hcount, hstray]
    omega
  | boundary c rest hc hpair ih =>
    have hrest := ih ht.tail (.inl rfl)
    rw [linesFrom_boundary hc hpair, List.length_cons, hrest, strayBreaks]
    by_cases hfeed : c = CodePoint.newline
    · rw [if_neg (fun h => h.2.1 hfeed), hfeed, List.count_cons_self]
      omega
    · rw [if_pos ⟨hc, hfeed, hpair⟩, List.count_cons_of_ne hfeed]
      omega
  | character c rest hc ih =>
    have hfeed : c ≠ CodePoint.newline := by
      rintro rfl
      exact absurd hc (by decide)
    have hne := ht.ne_nil hfeed
    rw [linesFrom_character hc, ih ht.tail (.inr hne), strayBreaks,
      if_neg (fun h => by simp [hc] at h), List.count_cons_of_ne hfeed, Nat.zero_add]

/-- Complete rows have a line for each row and one for each stray boundary. -/
theorem length_lines (ht : EndsRow t) :
    t.lines.length = t.count CodePoint.newline + t.strayBreaks :=
  length_linesFrom ht (.inl rfl)

theorem strayBreaks_append (ht : EndsRow t) (u : Text) :
    strayBreaks (t ++ u) = strayBreaks t + strayBreaks u := by
  induction t with
  | nil => simp [strayBreaks]
  | cons c rest ih =>
    have hpair := ht.pair_append_iff u
    rw [List.cons_append, strayBreaks, strayBreaks, ih ht.tail]
    simp only [hpair]
    omega

theorem strayBreaks_le_append (t u : Text) : strayBreaks u ≤ strayBreaks (t ++ u) := by
  induction t with
  | nil => exact Nat.le_refl _
  | cons c t ih =>
    rw [List.cons_append, strayBreaks]
    omega

/-- A text that is not empty begins with a line, which goes on to the first boundary. -/
theorem head?_linesFrom (h : line ≠ [] ∨ t ≠ []) :
    (linesFrom line t).head? = some (line ++ t.takeWhile fun c => !c.isLineBoundary) := by
  induction t using lines_induction generalizing line with
  | nil =>
    have hline : line ≠ [] := h.resolve_right (not_not_intro rfl)
    simp [linesFrom, hline]
  | pair rest => simp [linesFrom_pair, isLineBoundary_carriageReturn]
  | boundary c rest hc hpair => simp [linesFrom_boundary hc hpair, hc]
  | character c rest hc ih =>
    rw [linesFrom_character hc, ih (.inl (by simp))]
    simp [hc]

theorem head?_lines (h : t ≠ []) :
    t.lines.head? = some (t.takeWhile fun c => !c.isLineBoundary) :=
  head?_linesFrom (.inr h)

end EndsRow

section CompleteRows

variable {s t u : Text}

theorem completeRows_append_afterNewline (t : Text) : t.completeRows ++ t.afterNewline = t :=
  List.rdropWhile_append_rtakeWhile

theorem endsRow_completeRows (t : Text) : EndsRow t.completeRows := by
  intro c hc
  have hne : t.completeRows ≠ [] := by
    intro hnil
    rw [hnil] at hc
    cases hc
  have hlast : t.completeRows.getLast hne = c :=
    Option.some.inj ((List.getLast?_eq_some_getLast hne).symm.trans hc)
  have hnot : ¬ (t.completeRows.getLast hne != CodePoint.newline) = true :=
    List.rdropWhile_last_not _ t hne
  rw [hlast] at hnot
  simpa using hnot

theorem not_mem_afterNewline (t : Text) : CodePoint.newline ∉ t.afterNewline := by
  intro hmem
  have hne := List.mem_rtakeWhile_imp hmem
  simp at hne

theorem endsRow_iff : EndsRow s ↔ s = [] ∨ ∃ t, s = t ++ [CodePoint.newline] := by
  constructor
  · intro hs
    rcases List.eq_nil_or_concat s with rfl | ⟨t, c, rfl⟩
    · exact .inl rfl
    · obtain rfl : c = CodePoint.newline := hs c (by simp)
      exact .inr ⟨t, by simp⟩
  · rintro (rfl | ⟨t, rfl⟩) c hc
    · cases hc
    · simpa using hc.symm

/-- Behind complete rows, what holds no line feed is the begun row. -/
theorem afterNewline_append_of_endsRow (hs : EndsRow s) (ht : CodePoint.newline ∉ t) :
    (s ++ t).afterNewline = t := by
  rcases endsRow_iff.mp hs with rfl | ⟨s, rfl⟩
  · exact afterNewline_of_not_mem ht
  · rw [List.append_assoc]
    exact afterNewline_append s ht

theorem getElem?_rows_append (hs : EndsRow s) (u : Text) :
    (rows (s ++ u))[s.count CodePoint.newline]? = (rows u).head? := by
  rcases endsRow_iff.mp hs with rfl | ⟨s, rfl⟩
  · exact List.head?_eq_getElem?.symm
  · have hlength : (s ++ [CodePoint.newline]).count CodePoint.newline = s.rows.length := by
      rw [length_rows, List.count_append, List.count_singleton_self]
    have hassoc : s ++ [CodePoint.newline] ++ u = s ++ CodePoint.newline :: u := by simp
    rw [hlength, hassoc, rows_append_newline, ← List.head?_drop, List.drop_left]

/-- Behind complete rows without stray boundaries, the next line begins where the
next row does. -/
theorem getElem?_lines_append (hs : EndsRow s) (hstray : s.strayBreaks = 0) (u : Text) :
    (lines (s ++ u))[s.count CodePoint.newline]? = (lines u).head? := by
  have hlength : s.count CodePoint.newline = s.lines.length := by
    rw [length_lines hs, hstray, Nat.add_zero]
  rw [hlength, lines_append hs, ← List.head?_drop, List.drop_left]

/-- With a stray boundary in them, the complete rows have a line too many, which
stands where the next line is looked for. -/
theorem exists_line_of_strayBreaks (hs : EndsRow s) (hstray : s.strayBreaks ≠ 0) (u : Text) :
    ∃ line ∈ s.lines, (lines (s ++ u))[s.count CodePoint.newline]? = some line := by
  have hlt : s.count CodePoint.newline < s.lines.length := by
    rw [length_lines hs]
    omega
  refine ⟨s.lines[s.count CodePoint.newline], List.getElem_mem hlt, ?_⟩
  rw [lines_append hs, List.getElem?_append_left hlt, List.getElem?_eq_getElem hlt]

/-- The first line of a text is a part of its first row. -/
theorem exists_head_rows_of_head_lines {line : Text} (h : (lines u).head? = some line) :
    ∃ row, (rows u).head? = some row ∧ line <+: row := by
  have hu : u ≠ [] := by
    rintro rfl
    cases h
  obtain rfl : u.takeWhile (fun c => !c.isLineBoundary) = line :=
    Option.some.inj ((head?_lines hu).symm.trans h)
  have hline : CodePoint.newline ∉ u.takeWhile fun c => !c.isLineBoundary := by
    intro hmem
    have hnot := List.mem_takeWhile_imp hmem
    exact absurd hnot (by decide)
  obtain ⟨v, hv⟩ := head?_rows hline (u.dropWhile fun c => !c.isLineBoundary)
  rw [List.takeWhile_append_dropWhile] at hv
  exact ⟨_, hv, List.prefix_append _ v⟩

end CompleteRows

section LineAround

/-- The line of a text that holds a position: what stands before it, the line itself
without a boundary, what ends it, and what comes after. A position belongs to the
line that it stands in or at whose end it stands. -/
structure LineAround (t : Text) (position : Nat) (before line stop after : Text) : Prop where
  split : t = before ++ (line ++ (stop ++ after))
  begins : EndsRow before
  unbroken : ∀ c ∈ line, c.isLineBoundary = false
  ends : stop = [CodePoint.newline] ∨ stop = [CodePoint.carriageReturn, CodePoint.newline] ∨
    stop = [] ∧ after = []
  start_le : before.length ≤ position
  lt_end : position < before.length + line.length + stop.length ∨ stop = [] ∧ position = t.length

variable {t before line stop after : Text} {position : Nat}

theorem not_mem_of_unbroken (h : ∀ c ∈ line, c.isLineBoundary = false) :
    CodePoint.newline ∉ line := by
  intro hmem
  exact absurd (h _ hmem) (by decide)

/-- What ends a line and the rest, where no boundary is stray. -/
theorem exists_stop_of_strayBreaks (hstray : strayBreaks u = 0)
    (hboundary : ∀ c, u.head? = some c → c.isLineBoundary = true) :
    ∃ stop after, u = stop ++ after ∧ (stop = [CodePoint.newline] ∨
      stop = [CodePoint.carriageReturn, CodePoint.newline] ∨ stop = [] ∧ after = []) := by
  cases u with
  | nil => exact ⟨[], [], rfl, .inr (.inr ⟨rfl, rfl⟩)⟩
  | cons c rest =>
    have hc := hboundary c rfl
    by_cases hfeed : c = CodePoint.newline
    · exact ⟨[c], rest, rfl, .inl (by rw [hfeed])⟩
    · by_cases hpair : c = CodePoint.carriageReturn ∧ rest.head? = some CodePoint.newline
      · obtain ⟨rfl, hhead⟩ := hpair
        obtain ⟨after, rfl⟩ := List.head?_eq_some_iff.mp hhead
        exact ⟨_, after, rfl, .inr (.inl rfl)⟩
      · rw [strayBreaks, if_pos ⟨hc, hfeed, hpair⟩] at hstray
        omega

/-- A text without stray boundaries is its first line, what ends the line, and the rest. -/
theorem exists_line_of_strayBreaks_eq_zero (hstray : strayBreaks u = 0) :
    ∃ line stop after, u = line ++ (stop ++ after) ∧ (∀ c ∈ line, c.isLineBoundary = false) ∧
      (stop = [CodePoint.newline] ∨ stop = [CodePoint.carriageReturn, CodePoint.newline] ∨
        stop = [] ∧ after = []) := by
  have hsplit : (u.takeWhile fun c => !c.isLineBoundary) ++
      (u.dropWhile fun c => !c.isLineBoundary) = u := List.takeWhile_append_dropWhile
  have hrest : strayBreaks (u.dropWhile fun c => !c.isLineBoundary) = 0 := by
    have hle := strayBreaks_le_append (u.takeWhile fun c => !c.isLineBoundary)
      (u.dropWhile fun c => !c.isLineBoundary)
    rw [hsplit] at hle
    omega
  have hboundary : ∀ c, (u.dropWhile fun c => !c.isLineBoundary).head? = some c →
      c.isLineBoundary = true := by
    intro c hc
    have hnot := List.head?_dropWhile_not (fun c : CodePoint => !c.isLineBoundary) u
    rw [hc] at hnot
    simpa using hnot
  obtain ⟨stop, after, htail, hstop⟩ := exists_stop_of_strayBreaks hrest hboundary
  refine ⟨u.takeWhile fun c => !c.isLineBoundary, stop, after, ?_, ?_, hstop⟩
  · rw [← htail, hsplit]
  · intro c hc
    simpa using List.mem_takeWhile_imp hc

/-- What holds no line feed ends before the line feed that ends a line. -/
theorem length_lt_of_prefix {begun : Text} (hbegun : CodePoint.newline ∉ begun)
    (hstop : CodePoint.newline ∈ stop) (hbegins : begun <+: line ++ (stop ++ after)) :
    begun.length < line.length + stop.length := by
  by_contra hle
  have hlength : (line ++ stop).length ≤ begun.length := by
    rw [List.length_append]
    omega
  have hline : line ++ stop <+: line ++ (stop ++ after) := ⟨after, by rw [List.append_assoc]⟩
  have hwhole : line ++ stop <+: begun :=
    List.prefix_of_prefix_length_le hline hbegins hlength
  exact hbegun (hwhole.subset (List.mem_append_right line hstop))

/-- Where no boundary is stray, every position has its line. -/
theorem exists_lineAround (hstray : strayBreaks t = 0) (hposition : position ≤ t.length) :
    ∃ before line stop after, LineAround t position before line stop after := by
  -- The line begins behind the last line feed before the position, and ends at the first
  -- boundary behind that, which is not stray.
  have hsplit := completeRows_append_afterNewline (t.take position)
  have hbegun := not_mem_afterNewline (t.take position)
  have hrows := endsRow_completeRows (t.take position)
  generalize completeRows (t.take position) = before at hsplit hrows
  generalize afterNewline (t.take position) = begun at hsplit hbegun
  have hlength : before.length + begun.length = position := by
    rw [← List.length_append, hsplit, List.length_take_of_le hposition]
  have ht : t = before ++ (begun ++ t.drop position) := by
    rw [← List.append_assoc, hsplit, List.take_append_drop]
  have hrest : strayBreaks (begun ++ t.drop position) = 0 := by
    have hle := strayBreaks_le_append before (begun ++ t.drop position)
    rw [← ht] at hle
    omega
  obtain ⟨line, stop, after, hline, hunbroken, hstop⟩ := exists_line_of_strayBreaks_eq_zero hrest
  rw [hline] at ht
  have hend : position < before.length + line.length + stop.length ∨
      stop = [] ∧ position = t.length := by
    have hbegins : begun <+: line ++ (stop ++ after) := ⟨t.drop position, hline⟩
    rcases hstop with rfl | rfl | ⟨rfl, rfl⟩
    · have hlt := length_lt_of_prefix hbegun (by simp) hbegins
      exact .inl (by omega)
    · have hlt := length_lt_of_prefix hbegun (by simp) hbegins
      exact .inl (by omega)
    · have hall : t.length = before.length + line.length := by
        rw [ht, List.append_nil, List.append_nil, List.length_append]
      rcases Nat.lt_or_eq_of_le hposition with hlt | heq
      · exact .inl (by rw [List.length_nil]; omega)
      · exact .inr ⟨rfl, heq⟩
  exact ⟨before, line, stop, after, ht, hrows, hunbroken, hstop, by omega, hend⟩

/-- A position stands in its line or at the line's end, or between the two characters
that end it. -/
theorem LineAround.position_le (h : LineAround t position before line stop after) :
    position ≤ before.length + line.length ∨
      stop = [CodePoint.carriageReturn, CodePoint.newline] ∧
        position = before.length + line.length + 1 := by
  have hend := h.lt_end
  rcases h.ends with rfl | rfl | ⟨rfl, rfl⟩
  · simp only [List.length_singleton, List.cons_ne_nil, false_and, or_false] at hend
    omega
  · simp only [List.length_cons, List.length_nil, List.cons_ne_nil, false_and, or_false] at hend
    rcases Nat.lt_or_ge (before.length + line.length) position with hlt | hle
    · exact .inr ⟨rfl, by omega⟩
    · exact .inl hle
  · have hlength : t.length = before.length + line.length := by
      rw [h.split, List.append_nil, List.append_nil, List.length_append]
    rw [List.length_nil] at hend
    omega

/-- Up to a position a text is what stands before its line, and a begun row. -/
theorem LineAround.exists_begun (h : LineAround t position before line stop after) :
    ∃ begun, t.take position = before ++ begun ∧ CodePoint.newline ∉ begun ∧
      begun.length = position - before.length := by
  have hline := not_mem_of_unbroken h.unbroken
  have hstart := h.start_le
  rcases h.position_le with hle | ⟨rfl, rfl⟩
  · refine ⟨line.take (position - before.length), ?_, ?_, ?_⟩
    · rw [h.split, List.take_append, List.take_of_length_le hstart,
        List.take_append_of_le_length (by omega)]
    · exact fun hmem => hline (List.mem_of_mem_take hmem)
    · exact List.length_take_of_le (by omega)
  · refine ⟨line ++ [CodePoint.carriageReturn], ?_, ?_, ?_⟩
    · have hlength : before.length + line.length + 1 =
          (before ++ (line ++ [CodePoint.carriageReturn])).length := by
        simp only [List.length_append, List.length_singleton]
        omega
      have hsplit : t = before ++ (line ++ [CodePoint.carriageReturn]) ++
          CodePoint.newline :: after := by
        rw [h.split]
        simp
      rw [hlength, hsplit, List.take_left]
    · rw [List.mem_append, List.mem_singleton]
      rintro (hmem | heq)
      · exact hline hmem
      · exact newline_ne_carriageReturn heq
    · rw [List.length_append, List.length_singleton]
      omega

/-- The line of a position is the line with the number of the line feeds before it. -/
theorem LineAround.getElem?_lines (h : LineAround t position before line stop after)
    (hstray : strayBreaks t = 0) :
    t.lines[(t.take position).count CodePoint.newline]? =
      if line = [] ∧ stop = [] then none else some line := by
  obtain ⟨begun, htake, hbegun, -⟩ := h.exists_begun
  have hcount : (t.take position).count CodePoint.newline = before.count CodePoint.newline := by
    rw [htake, List.count_append, List.count_eq_zero_of_not_mem hbegun, Nat.add_zero]
  have hbefore : strayBreaks before = 0 := by
    have happend := strayBreaks_append h.begins (line ++ (stop ++ after))
    rw [← h.split, hstray] at happend
    omega
  rw [hcount]
  conv_lhs => rw [h.split]
  rw [getElem?_lines_append h.begins hbefore]
  split_ifs with hempty
  · obtain ⟨rfl, rfl⟩ := hempty
    have hafter : after = [] := by simpa using h.ends
    rw [hafter]
    rfl
  · have hne : line ++ (stop ++ after) ≠ [] := by
      intro hnil
      rw [List.append_eq_nil_iff, List.append_eq_nil_iff] at hnil
      exact hempty ⟨hnil.1, hnil.2.1⟩
    have hbreak : (stop ++ after).takeWhile (fun c => !c.isLineBoundary) = [] := by
      rcases h.ends with rfl | rfl | ⟨rfl, rfl⟩
      · simp [isLineBoundary_newline]
      · simp [isLineBoundary_carriageReturn]
      · rfl
    have hline : ∀ c ∈ line, (!c.isLineBoundary) = true := by
      intro c hc
      rw [h.unbroken c hc]
      rfl
    rw [head?_lines hne, List.takeWhile_append_of_pos hline, hbreak, List.append_nil]

end LineAround

end ParserCombinators.Text
