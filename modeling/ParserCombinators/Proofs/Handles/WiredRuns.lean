import ParserCombinators.Proofs.Depth
import ParserCombinators.Proofs.Handles.Wired

/-!
Parses in which every handle has its definition. Whatever is run on the way is wired
again: a recursive parser opens to a wired body, and functions are given wired values
and return such values. So no call comes to a name that has no parser yet.
-/

namespace ParserCombinators

open Run

def Inputs.wired : Inputs where
  Mem v := v.IsWired
  dropFirst n h := h.dropFirst n

/-- Any wired input, and any rest that is wired. -/
def Scope.wired : Scope Unit where
  inputs a := Uniform Value.IsWired a
  leaves a b := Uniform Value.IsWired a → Uniform Value.IsWired b
  refl _ := id
  trans hab hbc ha := hbc (hab ha)
  inputs_of_leaves ha hab := hab ha
  size_eq ha := by
    obtain ⟨v, -, rfl⟩ := ha
    exact ⟨v.size, fun _ => rfl⟩
  isSequence_eq ha := by
    obtain ⟨v, -, rfl⟩ := ha
    exact ⟨v.isSequence, fun _ => rfl⟩

theorem Scope.ordinary_wired : Scope.wired.Ordinary where
  inputs _ h := h.mono fun _ _ => trivial
  leaves a b := by
    intro h h'
    obtain ⟨n, rfl⟩ := h
    obtain ⟨v, hv, rfl⟩ := h'
    exact uniform_const (hv.dropFirst n)

instance : Scope.wired.Elementwise := Scope.ordinary_wired.elementwise

/-- Whatever is replied is wired. -/
def Shape.wired : Shape Unit := .uniform Value.IsWired Value.IsWired Value.IsWired

namespace Run.Logic

variable {L : Logic Unit} {X : Scope Unit} {S : Shape Unit} {call : Unit → Grammar → Rule}
  {p q : Unit → Rule}

section Replies

variable {a r v : Unit → Value}

theorem Fits.toWired {A B : Value → Prop} (hp : L.Fits X (.of A B) p)
    (houtputs : ∀ v, A v → v.IsWired) (herrors : ∀ e, B e → e.IsWired) : L.Fits X .wired p :=
  hp.weaken (fun _ => Uniform.mono houtputs) (fun _ => Uniform.mono herrors)
    fun _ => Uniform.mono fun _ h => h.elim

/-- What is left of a wired input is wired. -/
theorem Fits.onWired (hp : L.Fits (Scope.suffixes .wired) S p) : L.Fits .wired S p :=
  hp.rescope (fun _ ha => ha) Scope.ordinary_wired.leaves

theorem reply_wired {input : Unit → Value} {r : Value} (hr : r.IsWired) :
    Reply .wired .wired input fun _ => r := by
  cases hrest : r.rest? with
  | none => exact .stray (uniform_const hr) (stray_of_rest?_eq_none hrest)
  | some rest =>
    cases r with
    | success rest v =>
      obtain ⟨hrest, hv⟩ := Value.isWired_success.mp hr
      exact .success (fun _ => uniform_const hrest) (uniform_const hv)
    | failure rest e =>
      obtain ⟨hrest, he⟩ := Value.isWired_failure.mp hr
      exact .failure (fun _ => uniform_const hrest) (uniform_const he)
    | _ => cases hrest

theorem Reply.isWired {input : Unit → Value} (hinput : Scope.wired.inputs input)
    (hr : Reply .wired .wired input r) : Uniform Value.IsWired r := by
  obtain ⟨hrest, hv⟩ | ⟨hrest, he⟩ | ⟨hr, -⟩ := hr
  · exact (hrest hinput).map₂ (f := .success) hv fun _ _ hrest hv =>
      Value.isWired_success.mpr ⟨hrest, hv⟩
  · exact (hrest hinput).map₂ (f := .failure) he fun _ _ hrest he =>
      Value.isWired_failure.mpr ⟨hrest, he⟩
  · exact hr

theorem isWired_reads (h : Shape.wired.reads v) : Uniform Value.IsWired v := by
  obtain hv | ⟨_, ⟨r, hr, rfl⟩, hv⟩ := h
  · exact hv
  · refine ⟨v (), ?_, rfl⟩
    have houtput : r.output.Returns (v ()) := hv () ▸ returns_pure.mpr rfl
    cases r with
    | success rest w =>
      rw [returns_pure.mp houtput]
      exact (Value.isWired_success.mp hr).2
    | branch side w =>
      rw [returns_pure.mp houtput]
      exact hr
    | _ => exact absurd houtput not_returns_fail

theorem isWired_passed (ha : Passed .wired .wired a ∨ a = fun _ => .none) :
    Uniform Value.IsWired a := by
  obtain (⟨rest, v, hrest, hv, rfl⟩ | ⟨ha, -⟩) | rfl := ha
  · exact hrest.map₂ (f := .success) hv fun _ _ hrest hv => Value.isWired_success.mpr ⟨hrest, hv⟩
  · exact ha
  · exact uniform_const Value.isWired_none

end Replies

section Calls

/-- What does not call parsers and returns wired values. -/
theorem fits_of_returnsWired {p : Rule} (hshallow : ∀ input, (p input).Shallow)
    (hp : ∀ input, input.IsWired → (p input).ReturnsWired) : L.Fits .wired .wired fun _ => p := by
  intro a ha
  obtain ⟨input, hinput, rfl⟩ := ha
  exact L.steady (hshallow input) fun r hr => reply_wired (hp input hinput r hr)

variable (hcall : ∀ g : Grammar, g.IsWired → L.Fits .wired .wired fun i => call i g)

include hcall

theorem holds_invoke_wired {f : Value} {arguments : List Value} (hf : f.IsWired)
    (harguments : ∀ v ∈ arguments, v.IsWired) :
    L.Holds (fun i => f.invoke (call i) arguments) (Uniform Value.IsWired) := by
  cases f with
  | function identity f =>
    exact L.steady (Callback.shallow_apply f arguments) fun w hw =>
      uniform_const (Callback.returnsWired_apply f arguments hf harguments w hw)
  | parser identity g =>
    rcases arguments with _ | ⟨input, _ | _⟩
    · exact L.fail (by rintro ⟨⟩)
    · have hinput : Scope.wired.inputs fun _ => input :=
        uniform_const (harguments input List.mem_cons_self)
      exact L.weaken (hcall g hf _ hinput) fun r hr => Reply.isWired hinput hr
    · exact L.fail (by rintro ⟨⟩)
  | _ => exact L.fail (by rintro ⟨⟩)

theorem fits_wired_value {v : Value} (hv : v.IsWired) :
    L.Fits .wired .wired fun i => (Leaf.value v).rule (call i) := by
  refine fits_value ?_ ?_
  · intro identity f heq
    subst heq
    refine fits_of_returnsWired (fun input => Callback.shallow_apply f [input]) ?_
    intro input hinput
    exact Callback.returnsWired_apply f [input] hv (by simpa using hinput)
  · intro identity g heq
    subst heq
    exact hcall g hv

/-- A parser that a function returns is wired. -/
theorem holds_choose_wired {f : Callback} (hf : f.IsWired) {v : Unit → Value}
    (hv : Uniform Value.IsWired v) :
    L.Holds (fun i => f.choose (call i) (v i)) (L.Fits .wired .wired) := by
  obtain ⟨v, hv, rfl⟩ := hv
  refine holds_choose fun w hw => fits_wired_value hcall ?_
  exact Callback.returnsWired_apply f [v] hf (by simpa using hv) w hw

end Calls

section Leaves

variable (hcall : ∀ g : Grammar, g.IsWired → L.Fits .wired .wired fun i => call i g)

include hcall

theorem fits_wired_element {item error : Value} (hitem : item.IsWired) (herror : error.IsWired) :
    L.Fits .wired .wired fun i => Rule.element (item.accepts (call i)) error := by
  refine fits_element ?_ (uniform_const herror)
  intro a v ha hmem
  obtain ⟨input, hinput, rfl⟩ := ha
  have hv : v.IsWired := hinput.elements v (hmem ())
  have hpassed : ∀ b : Bool, ((∀ _ : Unit, b = true) ∧ Shape.wired.outputs fun _ => v) ∨
      ∀ _ : Unit, b = false := by
    intro b
    cases b with
    | true => exact .inl ⟨fun _ => rfl, uniform_const hv⟩
    | false => exact .inr fun _ => rfl
  by_cases hcallable : item.isCallable = true
  · simp only [Value.accepts, if_pos hcallable]
    have harguments : ∀ w ∈ [v], w.IsWired := by simpa using hv
    refine L.bind (holds_invoke_wired hcall hitem harguments) ?_
    intro w _
    exact L.pure (hpassed (w ()).isTrue)
  · simp only [Value.accepts, if_neg hcallable]
    exact L.pure (hpassed (v.equals item))

theorem fits_wired_leaf {l : Leaf} (hl : (Grammar.leaf l).IsWired) :
    L.Fits .wired .wired fun i => l.rule (call i) := by
  have hX := Scope.ordinary_wired
  have htext : ∀ v : Value, v.IsText → v.IsWired := by
    rintro _ ⟨t, rfl⟩
    exact Value.isWired_text t
  have hcharacter : ∀ (c : CodePoint) (error : Text),
      L.Fits .wired .wired fun _ => Rule.character c error := fun c error =>
    (fits_character c error).toWired (fun _ h => htext _ ⟨_, h⟩) fun _ h => htext _ ⟨_, h⟩
  cases l with
  | literal pattern error =>
    refine (fits_literal (fun input n hinput _ => ?_) (uniform_const (absent_second hl))).onWired
    exact uniform_const (hinput.takeFirst n)
  | element item error => exact fits_wired_element hcall (absent_first hl) (absent_second hl)
  | anything error =>
    refine fits_anything (fun a v ha hmem => ?_) (uniform_const hl)
    obtain ⟨input, hinput, rfl⟩ := ha
    exact uniform_const (hinput.elements v (hmem ()))
  | endOfInput error => exact fits_endOfInput (uniform_const Value.isWired_none) (uniform_const hl)
  | always v => exact fits_always (uniform_const hl)
  | never error => exact fits_never (uniform_const hl)
  | take count error =>
    refine (fits_take (fun input n hinput => ?_) (uniform_const hl)).onWired
    exact uniform_const (hinput.takeFirst n)
  | value v => exact fits_wired_value hcall hl
  | reply outcome =>
    exact fits_of_returnsWired (fun _ => shallow_pure _) fun _ _ => returnsWired_pure hl
  | space => exact hcharacter _ _
  | tab => exact hcharacter _ _
  | newline => exact hcharacter _ _
  | carriageReturn => exact hcharacter _ _
  | whitespace =>
    refine (fits_characterOf _ _).toWired ?_ fun _ h => htext _ ⟨_, h⟩
    rintro _ ⟨c, -, rfl⟩
    exact htext _ ⟨_, rfl⟩
  | whitespaces => exact fits_whitespaces.toWired htext fun _ h => h.elim
  | integer =>
    refine fits_integer.toWired ?_ fun _ h => htext _ ⟨_, h⟩
    rintro _ ⟨n, rfl⟩
    exact Value.isWired_int n
  | lineComment start =>
    exact ((fits_lineComment start).ordinary hX).toWired htext fun _ h => htext _ ⟨_, h⟩
  | blockComment start stop =>
    refine ((fits_blockComment start stop).ordinary hX).toWired htext ?_
    rintro _ (rfl | rfl)
    · exact htext _ ⟨_, rfl⟩
    · exact htext _ ⟨_, rfl⟩
  | quotedString quotes escape escapes =>
    exact ((fits_quotedString quotes escape escapes).ordinary hX).toWired htext htext

end Leaves

section Wrappers

theorem Fits.map_wired {f : Value → Run Value} (hp : L.Fits .wired .wired p)
    (hshallow : ∀ v, (f v).Shallow) (hf : ∀ v, v.IsWired → (f v).ReturnsWired) :
    L.Fits .wired .wired fun i => (p i).map f := by
  refine hp.map ?_ (fun _ he => he) fun _ hr => hr
  intro a ha
  obtain ⟨v, hv, rfl⟩ := ha
  exact L.steady (hshallow v) fun w hw => uniform_const (hf v hv w hw)

theorem Fits.mapError_wired {f : Value → Run Value} (hp : L.Fits .wired .wired p)
    (hshallow : ∀ e, (f e).Shallow) (hf : ∀ e, e.IsWired → (f e).ReturnsWired) :
    L.Fits .wired .wired fun i => (p i).mapError f := by
  refine hp.mapError (fun _ hv => hv) ?_ fun _ hr => hr
  intro a ha
  obtain ⟨e, he, rfl⟩ := ha
  exact L.steady (hshallow e) fun d hd => uniform_const (hf e he d hd)

theorem wired_lists (vs : List (Unit → Value)) (hvs : ∀ v ∈ vs, Shape.wired.outputs v) :
    Shape.wired.outputs (listOf vs) :=
  uniform_listOf hvs fun _ _ hws => Value.isWired_list.mpr hws

variable (hcall : ∀ g : Grammar, g.IsWired → L.Fits .wired .wired fun i => call i g)

include hcall

theorem fits_wired_wrapper {w : Wrapper} {g : Grammar} (hw : ∀ y, ¬ w.Mentions True y)
    (hp : L.Fits .wired .wired p) : L.Fits .wired .wired fun i => w.rule (call i) g (p i) := by
  have happly : ∀ f : Callback, f.IsWired → ∀ v : Value, v.IsWired → (f.map v).ReturnsWired :=
    fun f hf v hv => Callback.returnsWired_apply f [v] hf (by simpa using hv)
  cases w with
  | maybe => exact hp.maybe (fun _ hv => hv) (uniform_const Value.isWired_none) fun _ hr => hr
  | many => exact hp.many (fun _ => L.steady (shallow_log _) fun _ _ => trivial) wired_lists
  | first => exact hp.map_wired (fun v => v.shallow_item 0) fun v hv => v.returnsWired_item hv 0
  | second => exact hp.map_wired (fun v => v.shallow_item 1) fun v hv => v.returnsWired_item hv 1
  | atLeast n error =>
    exact hp.atLeast (fun vs _ => wired_lists vs) (uniform_const (absent_second hw))
  | atMost n => exact hp.atMost fun vs _ => wired_lists vs
  | exactly n error =>
    exact hp.exactly (fun vs _ => wired_lists vs) (uniform_const (absent_second hw))
  | not error => exact hp.not (uniform_const Value.isWired_none) (uniform_const hw)
  | lookahead => exact hp.lookahead (fun _ => isWired_reads) fun _ he => he
  | backtrack => exact hp.backtrack (fun _ hv => hv) (fun _ he => he) fun _ hr => hr
  | recoverWith f =>
    exact hp.recoverWith (fun _ he => holds_choose_wired hcall hw he) (fun _ hv => hv)
      fun _ hr => hr
  | andThen f =>
    exact hp.andThen (fun _ hv => holds_choose_wired hcall hw (isWired_reads hv))
      (fun _ he => he) fun _ hr => hr
  | bind f h =>
    exact hp.bind (fun _ hv => holds_choose_wired hcall (absent_first hw) (isWired_reads hv))
      fun _ he => holds_choose_wired hcall (absent_second hw) he
  | map f => exact hp.map_wired f.shallow_map (happly f hw)
  | mapError f => exact hp.mapError_wired f.shallow_map (happly f hw)
  | fold =>
    exact hp.mapError_wired (fun e => e.shallow_foldBranch) fun e => e.returnsWired_foldBranch
  | foldAll =>
    exact hp.mapError_wired (fun _ => shallow_pure _)
      fun e he => returnsWired_pure (Value.isWired_foldAll e he)
  | validate predicate error =>
    refine hp.validate (fun v hv => ?_) (uniform_const (absent_second hw)) (fun _ he => he)
      fun _ hr => hr
    obtain ⟨v, -, rfl⟩ := isWired_reads hv
    refine L.steady (predicate.shallow_map v) fun passed _ => ?_
    cases htrue : passed.isTrue with
    | true => exact .inl ⟨fun _ => htrue, fun hv => hv⟩
    | false => exact .inr fun _ => htrue
  | named name => exact hp
  | toParser => exact hp
  | parser name => exact hp
  | function name => exact hp
  | counted id =>
    intro a ha
    obtain ⟨input, hinput, rfl⟩ := ha
    exact L.bind_steady (shallow_emit _) fun _ _ => hp _ (uniform_const hinput)
  | lexeme => exact hp.lexeme fits_whitespaces (fun _ hv => hv) fun _ he => he
  | skipSpaces => exact hp.skipping fits_spaces (fun _ hv => hv) fun _ he => he
  | skipLineComment start =>
    have hcomment := (fits_lineComment (L := L) (I := .all) start).optional
    exact hp.skipping (hcomment.ordinary Scope.ordinary_wired) (fun _ hv => hv) fun _ he => he
  | skipBlockComment start stop =>
    have hcomment := (fits_blockComment (L := L) (I := .all) start stop).optional
    exact hp.skipping (hcomment.ordinary Scope.ordinary_wired) (fun _ hv => hv) fun _ he => he
  | charToString =>
    exact hp.map_wired (fun v => v.shallow_toText) fun v _ => v.returnsWired_toText
  | toUppercase =>
    exact hp.map_wired (fun v => v.shallow_toUpper) fun v _ => v.returnsWired_toUpper
  | toLowercase =>
    exact hp.map_wired (fun v => v.shallow_toLower) fun v _ => v.returnsWired_toLower

end Wrappers

section Joints

variable {v w e : Unit → Value}

theorem wired_branch (side : Side) (hv : Uniform Value.IsWired v) :
    Uniform Value.IsWired fun i => .branch side (v i) :=
  hv.map (f := .branch side) fun _ hv => Value.isWired_branch hv

theorem wired_pair (hv : Uniform Value.IsWired v) (hw : Uniform Value.IsWired w) :
    Uniform Value.IsWired fun i => .tuple [v i, w i] :=
  hv.map₂ (f := fun v w => .tuple [v, w]) hw fun _ _ hv hw => Value.isWired_pair hv hw

theorem fits_wired_surroundedBy {left right : Unit → Rule} (hp : L.Fits .wired .wired p)
    (hleft : L.Fits .wired .wired left) (hright : L.Fits .wired .wired right) :
    L.Fits .wired .wired fun i => (p i).surroundedBy (left i) (right i) :=
  (hleft.handsOver.pair hp fun _ _ h => h).handsOver.surroundedBy hright (fun _ _ h => h)
    (fun _ hv => hv) (fun _ he => wired_branch .left (wired_branch .left he))
    (fun _ he => wired_branch .left (wired_branch .right he)) fun _ he => wired_branch .right he

variable (hcall : ∀ g : Grammar, g.IsWired → L.Fits .wired .wired fun i => call i g)

include hcall

/-- The operators of a chain are applied to wired operands. -/
theorem holds_operator_wired {f a v : Unit → Value} (hf : Uniform Value.IsWired f)
    (ha : Uniform Value.IsWired a) (hv : Uniform Value.IsWired v) :
    L.Holds (fun i => (f i).invoke (call i) [a i, v i]) (Uniform Value.IsWired) := by
  obtain ⟨f, hf, rfl⟩ := hf
  obtain ⟨a, ha, rfl⟩ := ha
  obtain ⟨v, hv, rfl⟩ := hv
  exact holds_invoke_wired hcall hf (by simp [ha, hv])

theorem fits_wired_joint {j : Joint} (hj : ∀ y, ¬ j.Mentions True y)
    (hp : L.Fits .wired .wired p) (hq : L.Fits .wired .wired q) :
    L.Fits .wired .wired fun i => j.rule (call i) (p i) (q i) := by
  cases j with
  | seq =>
    exact hp.seq hq (fun _ _ => wired_pair) (fun _ => wired_branch .left) fun _ =>
      wired_branch .right
  | alt =>
    exact hp.alt hq (fun _ => wired_branch .left) (fun _ => wired_branch .right) fun _ _ =>
      wired_pair
  | skip =>
    exact hp.handsOver.skip hq (fun _ _ h => h) (fun _ hv => hv) (fun _ he => he) fun _ he => he
  | precededBy =>
    exact hq.handsOver.precededBy hp (fun _ _ h => h) (fun _ hv => hv)
      (fun _ => wired_branch .left) fun _ => wired_branch .right
  | sepBy => exact hp.sepBy hq wired_lists
  | sepBy1 error => exact hp.sepBy1 hq (fun vs _ => wired_lists vs) (uniform_const hj)
  | chainLeft =>
    exact hp.chainLeft hq (fun _ hv => hv) (fun _ _ _ => holds_operator_wired hcall)
      (fun _ he => he) fun _ hr => hr
  | chainRight =>
    exact hp.chainRight hq (fun _ hv => hv) (fun _ _ _ => holds_operator_wired hcall)
      (fun _ he => he) fun _ hr => hr
  | orBoth =>
    exact hp.orBoth hq (fun _ _ ha hb _ => wired_pair (isWired_passed ha) (isWired_passed hb))
      fun _ _ => wired_pair
  | apply =>
    refine hp.apply hq ?_ (fun _ he => he) (fun _ he => he) (fun _ hr => hr) fun _ hr => hr
    intro a b ha hb
    obtain ⟨f, hf, rfl⟩ := ha
    obtain ⟨v, hv, rfl⟩ := hb
    refine L.bind_steady v.shallow_iterate fun arguments harguments => ?_
    exact holds_invoke_wired hcall hf (v.isWired_of_iterate hv harguments)

end Joints

/-- The step: if calls of wired grammars keep to wired values, so does the rule of a
wired grammar. -/
theorem fits_wired_rule
    (hcall : ∀ g : Grammar, g.IsWired → L.Fits .wired .wired fun i => call i g) :
    ∀ g : Grammar, g.IsWired → L.Fits .wired .wired fun i => g.rule (call i)
  | .leaf _, hl => fits_wired_leaf hcall hl
  | .wrap _ g, hg =>
    fits_wired_wrapper hcall (absent_first hg) (fits_wired_rule hcall g (absent_second hg))
  | .join _ g h, hg =>
    fits_wired_joint hcall (absent_first hg)
      (fits_wired_rule hcall g (absent_first (absent_second hg)))
      (fits_wired_rule hcall h (absent_second (absent_second hg)))
  | .surroundedBy g left right, hg =>
    fits_wired_surroundedBy (fits_wired_rule hcall g (absent_first hg))
      (fits_wired_rule hcall left (absent_first (absent_second hg)))
      (fits_wired_rule hcall right (absent_second (absent_second hg)))
  | .ref x, hg => absurd rfl (hg (some x))
  | .recursive x body, hg =>
    hcall (Grammar.unfold x body) (show (Grammar.handle x body).IsWired from hg).unfold
  | .recursiveEager _ _ _, hg => absurd (.inl ⟨trivial, rfl⟩) (hg none)
  | .handle x body, hg => hcall (Grammar.unfold x body) hg.unfold

end Run.Logic

namespace Grammar

variable {g : Grammar} {input : Value}

/-- At every depth: the run of a wired grammar ends in no call of a parser without a
definition, and what it replies is wired. -/
theorem fits_wired_run (depth : Nat) : ∀ g : Grammar, g.IsWired →
    (Logic.avoiding .unwired).Fits .wired .wired fun _ => g.run depth := by
  induction depth with
  | zero =>
    intro g hg
    have hcall : ∀ g : Grammar, g.IsWired →
        (Logic.avoiding .unwired).Fits .wired .wired fun _ => callAt 0 g :=
      fun _ _ _ _ _ => ⟨nofun, nofun⟩
    rw [run_eq]
    exact Logic.fits_wired_rule hcall g hg
  | succ depth ih =>
    intro g hg
    rw [run_eq]
    exact Logic.fits_wired_rule ih g hg

theorem IsWired.run_ne_unwired (hg : g.IsWired) (hinput : input.IsWired) (depth made : Nat) :
    (g.run depth input made).result ≠ .error .unwired :=
  (fits_wired_run depth g hg (fun _ => input) (uniform_const hinput) made).1

theorem IsWired.parseOrReport_ne_unwired (hg : g.IsWired) (hinput : input.IsWired) (made : Nat) :
    (g.parseOrReport input made).result ≠ .error .unwired := by
  have hparse := fits_wired_run maximalDepth g hg (fun _ => input) (uniform_const hinput)
  have hreport : (Logic.avoiding .unwired).Holds (fun _ => g.parseOrReport input)
      fun _ => True := by
    refine (Logic.avoiding .unwired).bind hparse fun r _ => ?_
    refine (Logic.avoiding .unwired).steady (Q := fun _ => True) ?_ fun _ _ => trivial
    -- Nothing from the reply to the report calls a parser.
    split
    · exact (r ()).shallow_output
    · exact shallow_bind input.shallow_length fun _ => shallow_bind (r ()).shallow_rest fun rest =>
        shallow_bind rest.shallow_length fun _ => shallow_bind (r ()).shallow_error fun e =>
          shallow_bind e.shallow_requireWritable fun _ => shallow_bind (shallow_log _) fun _ =>
            shallow_bind ((r ()).shallow_report input) fun _ => shallow_fail nofun
  exact (hreport made).1

end Grammar

end ParserCombinators
