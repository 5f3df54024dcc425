import ParserCombinators.Grammar.Construction
import ParserCombinators.Proofs.Rule.Text
import ParserCombinators.Proofs.Suffix
import ParserCombinators.Proofs.Text.Place

/-!
What a failed parse is turned into. Its report names the source and the error
and gives the position at which what was left of the source begins; of a text it
also gives line and column. An error that cannot be written has no report.
-/

namespace ParserCombinators

open Run

theorem Text.one_lt_tooLong : 1 < Text.tooLong := by
  unfold Text.tooLong
  generalize hdigits : Text.maximalDigits = digits
  have hpos : digits ≠ 0 := by
    rw [← hdigits]
    decide
  exact Nat.one_lt_pow hpos (by decide)

theorem Text.ofInt_natCast (n : Nat) : Text.ofInt n = Text.ofNat n := by
  rw [Text.ofInt, if_neg (by omega), Int.natAbs_natCast]

namespace Value

variable {v : Value}

theorem requireWritable_of_isWritable (h : v.isWritable = true) :
    v.requireWritable = pure () := by
  rw [requireWritable, if_pos h]

theorem requireWritable_fails (h : v.isWritable = false) :
    v.requireWritable = Run.fail .badValue := by
  rw [requireWritable, h]
  rfl

/-- The notes of a report on a position of a source. -/
def notesAt (position : Int) : Value → List Text
  | text t => [Text.joinWith [CodePoint.newline] (Report.positionNote t position)]
  | v => ["At position " ++ Text.ofInt position ++ " of " ++ Text.ofNat v.size]

end Value

namespace Report

/-- A position of a text is told by the only note of the report, in words that
hold the line and the column where it stands. No other position stands there. -/
def NotesPlace (report : Report) (t : Text) (position : Nat) : Prop :=
  ∃ (line column : Nat) (snippet : List Text),
    report.notes = [Text.joinWith [CodePoint.newline]
      (("At position " ++ Text.ofNat position ++ " (line " ++ Text.ofNat line ++
        ", column " ++ Text.ofNat column ++ ")") :: snippet)] ∧
    t.StandsAt position line column ∧
    ∀ other ≤ t.length, t.lineAt other = line → t.columnAt other = column → other = position

/-- The report tells of a failure that leaves `rest` of a source. -/
structure Locates (report : Report) (source rest error : Value) : Prop where
  message_eq : report.message = "Parse failed: " ++ error.written
  source_eq : report.source = source
  error_eq : report.error = error
  position : ∃ position : Nat, report.position = position ∧ position ≤ source.size ∧
    source.dropFirst position = rest ∧ ∀ t, source = .text t → report.NotesPlace t position

section Create

variable {source rest e : Value} {position : Nat}

/-- What the report of an error says. -/
def ofError (source : Value) (position : Int) (e : Value) : Report :=
  ⟨"Parse failed: " ++ e.written, source, position, e, source.notesAt position⟩

theorem create_of_isSequence (hsource : source.isSequence = true) (he : e.isWritable = true)
    (position : Int) : create source position e .none = pure (ofError source position e) := by
  rw [create]
  simp only [Value.requireWritable_of_isWritable he, pure_bind]
  cases source with
  | text t => rfl
  | bytes b => rfl
  | list items => rfl
  | tuple items => rfl
  | _ => cases hsource

theorem create_fails (he : e.isWritable = false) (position : Int) :
    create source position e .none = Run.fail .badValue := by
  rw [create]
  simp only [Value.requireWritable_fails he]
  rfl

/-- The note on a position of a text tells where the position stands. -/
theorem notesPlace_ofError {t : Text} (hposition : position ≤ t.length) (e : Value) :
    (ofError (.text t) position e).NotesPlace t position := by
  obtain ⟨line, column, hline, hcolumn, hstands⟩ := Text.exists_standsAt hposition
  have hmin : min (position : Int) (t.length : Int) = position := by omega
  refine ⟨line, column, (t.lines[line - 1]?.bind (snippet? · column)).toList, ?_, hstands, ?_⟩
  · simp only [ofError, Value.notesAt, positionNote, placeNote, hmin, hline, hcolumn,
      Text.ofInt_natCast]
  · intro other hother hline' hcolumn'
    obtain ⟨line', column', hline'', hcolumn'', hstands'⟩ := Text.exists_standsAt hother
    obtain rfl : line' = line := hline''.symm.trans hline'
    obtain rfl : column' = column := by
      rw [hcolumn''] at hcolumn'
      exact Int.ofNat.inj hcolumn'
    exact hstands.unique hstands'

/-- The report of a failure on the input that it leaves a suffix of. -/
theorem locates_ofError (hrest : rest.IsSuffixOf source) (e : Value) :
    (ofError source ((source.size : Int) - rest.size) e).Locates source rest e := by
  have hposition : (source.size : Int) - rest.size = (source.size - rest.size : Nat) := by
    have hsize := hrest.1
    omega
  rw [hposition]
  refine ⟨rfl, rfl, rfl, source.size - rest.size, rfl, Nat.sub_le _ _, hrest.2.symm, ?_⟩
  intro t ht
  subst ht
  exact notesPlace_ofError (Nat.sub_le _ _) e

end Create

end Report

namespace Value

variable {source rest e : Value}

/-- The report of a failure measures its rest against the source. -/
theorem report_failure (hsource : source.isSequence = true) (hrest : rest.isSequence = true) :
    (failure rest e).report source =
      Report.create source ((source.size : Int) - rest.size) e .none := by
  have hgiven : source ≠ none := by
    intro heq
    subst heq
    cases hsource
  rw [report]
  · simp only [length_of_isSequence hsource, length_of_isSequence hrest, pure_bind]
  · exact hgiven

theorem unwrap_failure (hsource : source.isSequence = true) (hrest : rest.isSequence = true)
    (he : e.isWritable = true) :
    (failure rest e).unwrap source =
      Run.fail (.unparsed (Report.ofError source ((source.size : Int) - rest.size) e)) := by
  rw [unwrap, report_failure hsource hrest, Report.create_of_isSequence hsource he, pure_bind]

theorem unwrap_fails (hsource : source.isSequence = true) (hrest : rest.isSequence = true)
    (he : e.isWritable = false) :
    (failure rest e).unwrap source = Run.fail .badValue := by
  rw [unwrap, report_failure hsource hrest, Report.create_fails he]
  rfl

theorem IsSuffixOf.isSequence (h : rest.IsSuffixOf source) (hsource : source.isSequence = true) :
    rest.isSequence = true := by
  rw [h.2, isSequence_dropFirst, hsource]

end Value

namespace Grammar

variable {g : Grammar} {input rest e : Value} {made made' : Nat} {events : List Event}

theorem parseOrReport_of_success {v : Value}
    (hparse : g.parse input made = ⟨events, made', .ok (.success rest v)⟩) :
    g.parseOrReport input made = ⟨events, made', .ok v⟩ := by
  rw [parseOrReport, bind_apply_ok hparse]
  simp [pure_apply]

/-- A failure is logged and ends the run with its report. -/
theorem parseOrReport_of_failure (hinput : input.isSequence = true) (hrest : rest.isSequence = true)
    (he : e.isWritable = true)
    (hparse : g.parse input made = ⟨events, made', .ok (.failure rest e)⟩) :
    g.parseOrReport input made =
      ⟨events ++ [.log (failureLine g.name ((input.size : Int) - rest.size) e)], made',
        .error (.unparsed (Report.ofError input ((input.size : Int) - rest.size) e))⟩ := by
  rw [parseOrReport, bind_apply_ok hparse]
  simp only [Value.isTrue_failure, Bool.false_eq_true, Value.length_of_isSequence hinput,
    Value.rest_failure, Value.length_of_isSequence hrest, Value.error_failure,
    Value.requireWritable_of_isWritable he, Value.report_failure hinput hrest,
    Report.create_of_isSequence hinput he, pure_bind]
  rfl

theorem parseOrReport_fails (hinput : input.isSequence = true) (hrest : rest.isSequence = true)
    (he : e.isWritable = false)
    (hparse : g.parse input made = ⟨events, made', .ok (.failure rest e)⟩) :
    g.parseOrReport input made = ⟨events, made', .error .badValue⟩ := by
  rw [parseOrReport, bind_apply_ok hparse]
  simp only [Value.isTrue_failure, Bool.false_eq_true, Value.length_of_isSequence hinput,
    Value.rest_failure, Value.length_of_isSequence hrest, Value.error_failure,
    Value.requireWritable_fails he, pure_bind]
  simp [bind_apply_error (show (Run.fail .badValue : Run Unit) made' = ⟨[], made', _⟩ from rfl)]

/-- A parse that succeeds gives its output. One that fails is reported, at the
place where what it leaves of the input begins, if its error can be written, and
in the same way as its outcome is unwrapped. -/
theorem parseOrReport_locates (hg : ∀ p, g.Borrows .sequences p → p.LeavesSuffixes)
    (hinput : input.isSequence = true) :
    (∀ v, g.parse input made = ⟨events, made', .ok (.success rest v)⟩ →
      g.parseOrReport input made = ⟨events, made', .ok v⟩) ∧
    ∀ e, g.parse input made = ⟨events, made', .ok (.failure rest e)⟩ →
      (e.isWritable = true → ∃ report : Report, report.Locates input rest e ∧
        g.parseOrReport input made =
          ⟨events ++ [.log (failureLine g.name report.position e)], made',
            .error (.unparsed report)⟩ ∧
        (Value.failure rest e).unwrap input = Run.fail (.unparsed report)) ∧
      (e.isWritable = false →
        g.parseOrReport input made = ⟨events, made', .error .badValue⟩ ∧
        (Value.failure rest e).unwrap input = Run.fail .badValue) := by
  refine ⟨fun v hparse => parseOrReport_of_success hparse, fun e hparse => ?_⟩
  have hsuffix : rest.IsSuffixOf input := by
    have hlaw : g.parse.LeavesSuffixes := (fits_rule (callAt_leavesSuffixes _) g hg).leavesSuffixes
    exact hlaw input (.failure rest e) rest hinput ⟨made, by rw [hparse]⟩ rfl
  have hrest := hsuffix.isSequence hinput
  constructor
  · intro he
    exact ⟨_, Report.locates_ofError hsuffix e, parseOrReport_of_failure hinput hrest he hparse,
      Value.unwrap_failure hinput hrest he⟩
  · intro he
    exact ⟨parseOrReport_fails hinput hrest he hparse, Value.unwrap_fails hinput hrest he⟩

/-- Two lines, the second of which does not match. -/
def twoLines : Grammar :=
  join .seq (leaf (.literal (.text "a\n") .none)) (leaf (.literal (.text "b") (.text "no b")))

theorem parseOrReport_locates_twoLines :
    (Value.text "a\nac").isSequence = true ∧
    ∃ report : Report,
      report.Locates (.text "a\nac") (.text "ac") (.branch .right (.text "no b")) ∧
      (twoLines.parseOrReport (.text "a\nac") 0).result = .error (.unparsed report) := by
  have hborrows : ∀ p, twoLines.Borrows .sequences p → p.LeavesSuffixes := by
    intro p hp
    cases hp with
    | joinLeft h => cases h
    | joinRight h => cases h
  have hparse : twoLines.parse (.text "a\nac") 0 =
      ⟨[], 0, .ok (.failure (.text "ac") (.branch .right (.text "no b")))⟩ := by
    rw [parse, twoLines, run_join, run_leaf, run_leaf]
    rfl
  obtain ⟨report, hlocates, hend, -⟩ :=
    ((parseOrReport_locates hborrows rfl).2 _ hparse).1 (by decide)
  exact ⟨rfl, report, hlocates, by rw [hend]⟩

/-- A parser that fails with an integer that has one digit too many. -/
def excess : Grammar :=
  wrap (.mapError (.add (.int 1))) (leaf (.never (.int (Text.tooLong - 1))))

/-- Where an error cannot be written, a failed parse ends with no report of it. -/
theorem parseOrReport_excess :
    (excess.build 0).result = .ok () ∧
      (excess.parse (.text []) 0).result = .ok (.failure (.text []) (.int Text.tooLong)) ∧
      (excess.parseOrReport (.text []) 0).result = .error .badValue := by
  have hmany := Text.one_lt_tooLong
  have hwritable : (Value.int (Text.tooLong - 1)).isWritable = true := by
    rw [Value.isWritable, decide_eq_true_iff]
    omega
  have hone : (Value.int 1).isWritable = true := by
    rw [Value.isWritable, decide_eq_true_iff]
    exact hmany
  have hexcess : (Value.int Text.tooLong).isWritable = false := by
    rw [Value.isWritable, decide_eq_false_iff_not]
    omega
  have hadd : (Callback.add (.int 1)).map (.int (Text.tooLong - 1)) =
      pure (.int Text.tooLong) := by
    have hsum : (Text.tooLong : Int) - 1 + 1 = Text.tooLong := by omega
    calc (Callback.add (.int 1)).map (.int (Text.tooLong - 1))
        = pure (.int (Text.tooLong - 1 + 1)) := rfl
      _ = pure (.int Text.tooLong) := by rw [hsum]
  have hparse : excess.parse (.text []) 0 =
      ⟨[], 0, .ok (.failure (.text []) (.int Text.tooLong))⟩ := by
    rw [parse, excess, run_wrap, run_leaf]
    exact congrFun (Rule.mapError_of_failure rfl hadd) 0
  refine ⟨?_, by rw [hparse], ?_⟩
  · have hbuild : excess.build = pure () := by
      simp only [build, excess, construct, Leaf.construct, Value.construct, Wrapper.construct,
        Callback.construct, Value.requireWritable_of_isWritable hwritable,
        Value.requireWritable_of_isWritable hone, pure_bind]
      rfl
    rw [hbuild]
    rfl
  · rw [parseOrReport_fails rfl rfl hexcess hparse]

end Grammar

end ParserCombinators
