import ParserCombinators.Value.Convert

/-!
Outcomes of a parse: a success with what is left of the input and an output,
or a failure with the place where it was decided and an error. A parser made
outside the library may reply with any value, so what is read from a reply may
be missing from it. A failure turns into a report of where it happened.
-/

namespace ParserCombinators

/-- The outcome of a match. -/
def accept (rest output : Value) : Run Value := pure (.success rest output)

/-- The outcome of a mismatch. -/
def reject (rest error : Value) : Run Value := pure (.failure rest error)

namespace Value

/-- The input that an outcome leaves. -/
def rest : Value → Run Value
  | success rest _ => pure rest
  | failure rest _ => pure rest
  | _ => Run.fail .noField

/-- The value that a success or a marker holds. -/
def output : Value → Run Value
  | success _ v => pure v
  | branch _ v => pure v
  | _ => Run.fail .noField

/-- The error of a failure. -/
def error : Value → Run Value
  | failure _ e => pure e
  | _ => Run.fail .noField

end Value

namespace Report

/-- Adds a note on a position, headed by a message if there is one. -/
def appendNote (report : Report) (position : Int) (message : Value) : Run Report :=
  match report.source with
  | .text source => do
    let place := Report.positionNote source position
    let parts ← match message with
      | .none => pure place
      | .text t => pure (t :: place)
      | _ => Run.fail .wrongType
    pure { report with
      notes := report.notes ++ [Text.joinWith [CodePoint.newline] parts] }
  | _ => Run.fail .notText

/-- The report of an error at a position, with a note on the position. -/
def create (source : Value) (position : Int) (error message : Value) : Run Report := do
  let wording ← match message with
    | .none => do
      error.requireWritable
      pure ("Parse failed: " ++ error.written)
    | v => pure v.display
  let report : Report := ⟨wording, source, position, error, []⟩
  match source with
  | .text _ => report.appendNote position .none
  | _ => do
    let size ← source.length
    let note := "At position " ++ Text.ofInt position ++ " of " ++ Text.ofNat size
    pure { report with notes := [note] }

end Report

namespace Value

/-- The report of a failure on a source, on its own rest if the source is `none`. -/
def report (outcome source : Value) : Run Report :=
  match outcome with
  | failure rest e => do
    let source := match source with
      | none => rest
      | v => v
    let whole ← source.length
    let left ← rest.length
    Report.create source ((whole : Int) - left) e none
  | _ => Run.fail .noField

/-- The output of a success; a failure ends the run with its report. -/
def unwrap (outcome source : Value) : Run Value :=
  match outcome with
  | success _ v => pure v
  | failure rest e => do
    let report ← (failure rest e).report source
    Run.fail (.unparsed report)
  | _ => Run.fail .noField

end Value

end ParserCombinators
