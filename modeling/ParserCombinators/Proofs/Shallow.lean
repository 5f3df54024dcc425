import ParserCombinators.Callback
import ParserCombinators.Lexical.Integer
import ParserCombinators.Lexical.Lexeme
import ParserCombinators.Lexical.QuotedString
import ParserCombinators.Proofs.Logic

/-!
What is asked of values, and the functions a grammar is given, never nest
calls. Whatever a function is applied to, it returns or raises on its own.
-/

namespace ParserCombinators

open Run

namespace Value

variable (v w : Value)

theorem shallow_rest : v.rest.Shallow := by
  cases v <;> first | exact shallow_pure _ | exact shallow_fail nofun

theorem shallow_output : v.output.Shallow := by
  cases v <;> first | exact shallow_pure _ | exact shallow_fail nofun

theorem shallow_error : v.error.Shallow := by
  cases v <;> first | exact shallow_pure _ | exact shallow_fail nofun

theorem shallow_length : v.length.Shallow := by
  unfold length
  split
  · exact shallow_pure _
  · exact shallow_fail nofun

theorem shallow_cutAt (index : Int) : (v.cutAt index).Shallow :=
  shallow_bind v.shallow_length fun _ => shallow_pure _

theorem shallow_item (index : Int) : (v.item index).Shallow := by
  refine shallow_bind v.shallow_length fun size => ?_
  split
  · exact shallow_fail nofun
  · exact shallow_ofOption nofun

theorem shallow_follow (path : List Int) : ∀ v : Value, (follow path v).Shallow := by
  induction path with
  | nil => exact fun v => shallow_pure v
  | cons index path ih => exact fun v => shallow_bind (v.shallow_item index) ih

theorem shallow_iterate : v.iterate.Shallow := by
  unfold iterate
  split
  · exact shallow_pure _
  · exact shallow_pure _
  · split
    · exact shallow_pure _
    · exact shallow_fail nofun

theorem shallow_concat (vs : List Value) : (concat vs).Shallow := by
  induction vs with
  | nil => exact shallow_pure _
  | cons v vs ih =>
    cases v with
    | text t => exact shallow_bind ih fun _ => shallow_pure _
    | _ => exact shallow_fail nofun

theorem shallow_join : v.join.Shallow :=
  shallow_bind v.shallow_iterate fun items => shallow_bind (shallow_concat items) fun _ =>
    shallow_pure _

theorem shallow_contains : (v.contains w).Shallow := by
  unfold contains
  split
  case h_3 =>
    split
    · split
      · exact shallow_pure _
      · exact shallow_fail nofun
    · exact shallow_fail nofun
  all_goals first | exact shallow_pure _ | exact shallow_fail nofun

theorem shallow_isOneOf (characters : Text) : (v.isOneOf characters).Shallow := by
  unfold isOneOf
  split
  · exact shallow_pure _
  · split
    · exact shallow_pure _
    · exact shallow_fail nofun

theorem shallow_foldBranch : v.foldBranch.Shallow := by
  cases v <;> first | exact shallow_pure _ | exact shallow_fail nofun

theorem shallow_side : v.side.Shallow := by
  cases v <;> first | exact shallow_pure _ | exact shallow_fail nofun

theorem shallow_requireWritable : v.requireWritable.Shallow := by
  unfold requireWritable
  split
  · exact shallow_pure _
  · exact shallow_fail nofun

theorem shallow_toText : v.toText.Shallow :=
  shallow_bind v.shallow_requireWritable fun _ => shallow_pure _

theorem shallow_sideAndValue : v.sideAndValue.Shallow :=
  shallow_bind v.shallow_side fun _ => shallow_bind v.shallow_output fun w =>
    shallow_bind w.shallow_requireWritable fun _ => shallow_pure _

theorem shallow_readInteger (t : Text) : (readInteger t).Shallow :=
  shallow_bind (shallow_ofOption nofun) fun _ => shallow_pure _

theorem shallow_toInteger : v.toInteger.Shallow := by
  unfold toInteger
  split
  · exact shallow_readInteger _
  · split
    · exact shallow_readInteger _
    · exact shallow_fail nofun
  · exact shallow_bind (shallow_ofOption nofun) fun _ => shallow_pure _

theorem shallow_toCount : v.toCount.Shallow := by
  refine shallow_bind (shallow_ofOption nofun) fun n => ?_
  split
  · exact shallow_fail nofun
  · exact shallow_pure _

theorem shallow_toUpper : v.toUpper.Shallow := by
  cases v <;> first | exact shallow_pure _ | exact shallow_fail nofun

theorem shallow_toLower : v.toLower.Shallow := by
  cases v <;> first | exact shallow_pure _ | exact shallow_fail nofun

theorem shallow_arithmetic (f : Int → Int → Int) : (arithmetic f v w).Shallow :=
  shallow_bind (shallow_ofOption nofun) fun _ =>
    shallow_bind (shallow_ofOption nofun) fun _ => shallow_pure _

theorem shallow_plus : (v.plus w).Shallow := by
  unfold plus
  split
  · exact shallow_pure _
  · exact shallow_arithmetic _ _ _

theorem shallow_add : (v.add w).Shallow := by
  unfold add
  split
  · exact shallow_pure _
  · exact shallow_pure _
  · exact shallow_plus _ _

theorem shallow_modulo : (v.modulo w).Shallow := by
  refine shallow_bind (shallow_ofOption nofun) fun a =>
    shallow_bind (shallow_ofOption nofun) fun b => ?_
  split
  · exact shallow_fail nofun
  · exact shallow_pure _

end Value

theorem Grammar.shallow_make (g : Grammar) : g.make.Shallow :=
  shallow_bind shallow_newIdentity fun _ => shallow_pure _

namespace Callback

/-- A parser made anew from a value that is checked first. -/
theorem shallow_construction {α : Type} {check : Run α} (hcheck : check.Shallow) (v : Value)
    (g : Grammar) : (check >>= fun _ => v.requireWritable >>= fun _ => g.make).Shallow :=
  shallow_bind hcheck fun _ => shallow_bind v.shallow_requireWritable fun _ => g.shallow_make

mutual

theorem shallow_apply : ∀ (f : Callback) (arguments : List Value), (f.apply arguments).Shallow
  | f, arguments => by
    unfold apply
    split
    -- The cases are those of the definition; each ends in one run on values.
    all_goals first
      | exact shallow_apply _ _
      | exact shallow_applyAll _ _
      | exact shallow_pure _
      | exact shallow_fail nofun
      | exact shallow_construction (Value.shallow_toCount _) _ _
      | exact shallow_construction (Value.shallow_length _) _ _
      | exact shallow_bind (Value.shallow_requireWritable _) fun _ => Grammar.shallow_make _
      | exact shallow_bind (Value.shallow_length _) fun _ => shallow_pure _
      | exact shallow_bind (Value.shallow_contains _ _) fun _ => shallow_pure _
      | simp only [Value.shallow_plus, Value.shallow_arithmetic, Value.shallow_toText,
          Value.shallow_toInteger, Value.shallow_join, Value.shallow_foldBranch,
          Value.shallow_sideAndValue, Value.shallow_follow, Value.shallow_add,
          Value.shallow_modulo]

theorem shallow_applyAll : ∀ (functions : List Callback) (v : Value),
    (applyAll functions v).Shallow
  | [], v => shallow_pure v
  | f :: functions, _ => shallow_bind (shallow_apply f _) fun w => shallow_applyAll functions w

end

end Callback

namespace Report

theorem shallow_appendNote (report : Report) (position : Int) (message : Value) :
    (report.appendNote position message).Shallow := by
  unfold appendNote
  split
  · split
    · exact shallow_bind (shallow_pure _) fun _ => shallow_pure _
    · exact shallow_bind (shallow_pure _) fun _ => shallow_pure _
    · exact shallow_bind (shallow_fail nofun) fun _ => shallow_pure _
  · exact shallow_fail nofun

theorem shallow_create (source : Value) (position : Int) (error message : Value) :
    (create source position error message).Shallow := by
  have hsize : ∀ f : Nat → Report, (source.length >>= fun n => pure (f n)).Shallow := fun f =>
    shallow_bind source.shallow_length fun _ => shallow_pure _
  unfold create
  split
  · split
    · exact shallow_bind error.shallow_requireWritable fun _ =>
        shallow_bind (shallow_pure _) fun _ => shallow_appendNote _ position .none
    · exact shallow_bind (shallow_pure _) fun _ => shallow_appendNote _ position .none
  · split
    · exact shallow_bind error.shallow_requireWritable fun _ =>
        shallow_bind (shallow_pure _) fun _ => hsize _
    · exact shallow_bind (shallow_pure _) fun _ => hsize _

end Report

theorem Value.shallow_report (outcome source : Value) : (outcome.report source).Shallow := by
  unfold report
  split
  · have hwhole : ∀ v : Value, (v.length >>= fun n => pure (n : Int)).Shallow := fun v =>
      shallow_bind v.shallow_length fun _ => shallow_pure _
    exact shallow_bind (hwhole _) fun _ => shallow_bind (shallow_length _) fun _ =>
      Report.shallow_create _ _ _ _
  · exact shallow_fail nofun

namespace Rule

theorem shallow_middle (v : Value) : (middle v).Shallow :=
  shallow_bind (v.shallow_item 0) fun pair => pair.shallow_item 1

theorem shallow_signedInteger (pair : Value) : (signedInteger pair).Shallow :=
  shallow_bind (pair.shallow_item 0) fun _ => shallow_bind (pair.shallow_item 1) fun digits =>
    shallow_bind digits.shallow_join fun _ => shallow_bind (Value.shallow_plus _ _)
      Value.shallow_toInteger

theorem shallow_spelledCharacter (digits : Value) : (spelledCharacter digits).Shallow := by
  refine shallow_bind digits.shallow_join fun v => ?_
  split
  · exact shallow_pure _
  · exact shallow_fail nofun

theorem shallow_replacement (escapes : List (Text × Text)) (v : Value) :
    (replacement escapes v).Shallow := by
  unfold replacement
  split
  · exact shallow_pure _
  · split
    · exact shallow_pure _
    · exact shallow_fail nofun

theorem shallow_resolveEscape (escapes : List (Text × Text)) (v : Value) :
    (resolveEscape escapes v).Shallow := by
  unfold resolveEscape
  split
  · exact shallow_pure _
  · exact shallow_bind (shallow_replacement escapes v) fun w =>
      shallow_bind w.shallow_requireWritable fun _ => shallow_pure _

end Rule

end ParserCombinators
