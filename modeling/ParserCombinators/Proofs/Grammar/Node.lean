import ParserCombinators.Grammar.Rule
import ParserCombinators.Proofs.Lexical
import ParserCombinators.Proofs.Rule.Chain

/-!
The nodes of a grammar one by one. A node whose parts reply the same for a
whole family replies the same itself, and leaves a suffix of its input. Set apart
are the nodes that run a parser they find among values: those that go on with
what a function returned, and those that call a value.
-/

namespace ParserCombinators

open Run

namespace Leaf

/-- Whether a leaf runs neither a parser among its values nor a reply made
outside the library. -/
def isPlain : Leaf → Bool
  | element (.parser _ _) _ => false
  | value _ => false
  | reply _ => false
  | _ => true

/-- Whether a leaf sees nothing of its input but its elements, whatever kind of
sequence they stand in. -/
def isGeneric : Leaf → Bool
  | literal _ _ => false
  | lineComment _ => false
  | blockComment _ _ => false
  | quotedString _ _ _ => false
  | take _ _ => false
  | reply _ => false
  | value (.function _ _) => false
  | _ => true

end Leaf

namespace Wrapper

/-- Whether a wrapper goes on with a parser that a function returns. -/
def chooses : Wrapper → Bool
  | recoverWith _ => true
  | andThen _ => true
  | bind _ _ => true
  | _ => false

/-- Whether a wrapper leaves it to the parser in it to look at the input. -/
def isGeneric : Wrapper → Bool
  | skipLineComment _ => false
  | skipBlockComment _ _ => false
  | counted _ => false
  | _ => true

end Wrapper

theorem Callback.shallow_map (f : Callback) (v : Value) : (f.map v).Shallow :=
  Callback.shallow_apply f [v]

namespace Run.Logic

variable {ι : Type} {L : Logic ι} {X : Scope ι} {call : ι → Grammar → Rule}

/-- Replies that are the same at the same place are one value. -/
theorem uniform_reply {input r : ι → Value} (hX : X.Ordinary) (hinput : X.inputs input)
    (hr : Reply X .same input r) : Uniform (fun _ => True) r := by
  obtain ⟨hrest, ⟨v, -, rfl⟩⟩ | ⟨hrest, ⟨e, -, rfl⟩⟩ | ⟨⟨v, -, rfl⟩, -⟩ := hr
  · obtain ⟨rest, -, rfl⟩ := hX.inputs _ (X.inputs_of_leaves hinput hrest)
    exact uniform_const trivial
  · obtain ⟨rest, -, rfl⟩ := hX.inputs _ (X.inputs_of_leaves hinput hrest)
    exact uniform_const trivial
  · exact uniform_const trivial

theorem Fits.toSame {p : ι → Rule} {A B : Value → Prop} (hp : L.Fits X (.of A B) p) :
    L.Fits X .same p :=
  hp.weaken (fun _ => Uniform.mono fun _ _ => trivial)
    (fun _ => Uniform.mono fun _ _ => trivial) fun _ => Uniform.mono fun _ h => h.elim

/-- What a value replies to arguments. Only a parser that is given one argument
is called. -/
theorem holds_invoke {f : Value} {arguments : List Value}
    (hparser : ∀ identity g input, f = .parser identity g → arguments = [input] →
      L.Holds (fun i => call i g input) (Uniform fun _ => True)) :
    L.Holds (fun i => f.invoke (call i) arguments) (Uniform fun _ => True) := by
  cases f with
  | function identity f =>
    exact L.steady (Callback.shallow_apply f arguments) fun w _ => uniform_const trivial
  | parser identity g =>
    rcases arguments with _ | ⟨input, _ | _⟩
    · exact L.fail (by rintro ⟨⟩)
    · exact hparser identity g input rfl rfl
    · exact L.fail (by rintro ⟨⟩)
  | _ => exact L.fail (by rintro ⟨⟩)

/-- A value in the place of a parser. -/
theorem fits_value {S : Shape ι} {v : Value}
    (hfunction : ∀ identity f, v = .function identity f → L.Fits X S fun _ input => f.apply [input])
    (hparser : ∀ identity g, v = .parser identity g → L.Fits X S fun i => call i g) :
    L.Fits X S fun i => (Leaf.value v).rule (call i) := by
  cases v with
  | function identity f => exact hfunction identity f rfl
  | parser identity g => exact hparser identity g rfl
  | _ => exact fun _ _ => L.fail (by rintro ⟨⟩)

/-- An element may be tested by a function or a parser, which must reply the
same then. -/
theorem fits_tested [X.Elementwise] {item : ι → Value} {error : Value}
    (hcallable : ∀ i, (item i).isCallable = true)
    (hitem : ∀ v, L.Holds (fun i => (item i).invoke (call i) [v]) (Uniform fun _ => True)) :
    L.Fits X .same fun i => Rule.element ((item i).accepts (call i)) error := by
  refine fits_element (fun _ v _ _ => ?_) (uniform_const trivial)
  simp only [Value.accepts, hcallable, if_true]
  refine L.bind (hitem v) ?_
  intro a ha
  obtain ⟨passed, -, rfl⟩ := ha
  refine L.pure ?_
  cases htrue : passed.isTrue with
  | true => exact .inl ⟨fun _ => htrue, uniform_const trivial⟩
  | false => exact .inr fun _ => htrue

theorem fits_accepts [X.Elementwise] {item error : Value}
    (hitem : ∀ v, L.Holds (fun i => item.invoke (call i) [v]) (Uniform fun _ => True)) :
    L.Fits X .same fun i => Rule.element (item.accepts (call i)) error := by
  by_cases hcallable : item.isCallable = true
  · exact fits_tested (fun _ => hcallable) hitem
  · refine fits_element (fun _ v _ _ => ?_) (uniform_const trivial)
    simp only [Value.accepts, if_neg hcallable]
    refine L.pure ?_
    cases v.equals item with
    | true => exact .inl ⟨fun _ => rfl, uniform_const trivial⟩
    | false => exact .inr fun _ => rfl

theorem fits_leaf_generic [X.Elementwise] {l : Leaf} (hl : l.isPlain = true)
    (hgeneric : l.isGeneric = true) : L.Fits X .same fun i => l.rule (call i) := by
  have hany : ∀ v : Value, Uniform (fun _ => True) fun _ : ι => v := fun v => uniform_const trivial
  cases l with
  | element item error =>
    refine fits_accepts fun v => holds_invoke ?_
    intro identity g a heq
    subst heq
    cases hl
  | anything error => exact fits_anything (fun _ v _ _ => hany v) (hany error)
  | endOfInput error => exact fits_endOfInput (hany .none) (hany error)
  | always v => exact fits_always (hany v)
  | never error => exact fits_never (hany error)
  | space => exact (fits_character _ _).toSame
  | tab => exact (fits_character _ _).toSame
  | newline => exact (fits_character _ _).toSame
  | carriageReturn => exact (fits_character _ _).toSame
  | whitespace => exact (fits_characterOf _ _).toSame
  | whitespaces => exact fits_whitespaces.toSame
  | integer => exact fits_integer.toSame
  | value v => cases hl
  | _ => cases hgeneric

theorem fits_leaf {l : Leaf} (hX : X.Ordinary) (hl : l.isPlain = true) :
    L.Fits X .same fun i => l.rule (call i) := by
  have hany : ∀ v : Value, Uniform (fun _ => True) fun _ : ι => v := fun v => uniform_const trivial
  by_cases hgeneric : l.isGeneric = true
  · have helementwise := hX.elementwise
    exact fits_leaf_generic hl hgeneric
  · cases l with
    | literal pattern error =>
      exact (fits_literal (fun _ _ _ _ => hany _) (hany error)).ordinary hX
    | lineComment start => exact ((fits_lineComment start).ordinary hX).toSame
    | blockComment start stop => exact ((fits_blockComment start stop).ordinary hX).toSame
    | quotedString quotes escape escapes =>
      exact ((fits_quotedString quotes escape escapes).ordinary hX).toSame
    | take count error => exact (fits_take (fun _ _ _ => hany _) (hany error)).ordinary hX
    | value v => cases hl
    | reply outcome => cases hl
    | _ => exact absurd rfl hgeneric

/-- What is read from replies that are the same is the same. -/
theorem uniform_reads {v : ι → Value} (h : Shape.same.reads v) : Uniform (fun _ => True) v := by
  obtain hv | ⟨_, ⟨r, -, rfl⟩, hr⟩ := h
  · exact hv
  · by_cases hι : Nonempty ι
    · obtain ⟨j⟩ := hι
      refine ⟨v j, trivial, funext fun i => pure_injective ?_⟩
      rw [← hr i, ← hr j]
    · exact ⟨.none, trivial, funext fun i => absurd ⟨i⟩ hι⟩

theorem Fits.map_same {p : ι → Rule} {f : Value → Run Value} (hp : L.Fits X .same p)
    (hf : ∀ v, (f v).Shallow) : L.Fits X .same fun i => (p i).map f := by
  refine hp.map ?_ (fun _ he => he) fun _ hr => hr
  intro a ha
  obtain ⟨v, -, rfl⟩ := ha
  exact L.steady (hf v) fun w _ => uniform_const trivial

theorem Fits.mapError_same {p : ι → Rule} {f : Value → Run Value} (hp : L.Fits X .same p)
    (hf : ∀ e, (f e).Shallow) : L.Fits X .same fun i => (p i).mapError f := by
  refine hp.mapError (fun _ hv => hv) ?_ fun _ hr => hr
  intro a ha
  obtain ⟨e, -, rfl⟩ := ha
  exact L.steady (hf e) fun d _ => uniform_const trivial

section Choosers

variable {p : ι → Rule} {f h : ι → Value → Run Rule}

theorem Fits.recoverWith_same (hp : L.Fits X .same p)
    (hf : ∀ e, L.Holds (fun i => f i e) (L.Fits X .same)) :
    L.Fits X .same fun i => (p i).recoverWith (f i) := by
  refine hp.recoverWith ?_ (fun _ hv => hv) fun _ hr => hr
  intro a ha
  obtain ⟨e, -, rfl⟩ := ha
  exact hf e

theorem Fits.andThen_same (hp : L.Fits X .same p)
    (hf : ∀ v, L.Holds (fun i => f i v) (L.Fits X .same)) :
    L.Fits X .same fun i => (p i).andThen (f i) := by
  refine hp.andThen ?_ (fun _ he => he) fun _ hr => hr
  intro a ha
  obtain ⟨v, -, rfl⟩ := uniform_reads ha
  exact hf v

theorem Fits.bind_same (hp : L.Fits X .same p)
    (hf : ∀ v, L.Holds (fun i => f i v) (L.Fits X .same))
    (hh : ∀ e, L.Holds (fun i => h i e) (L.Fits X .same)) :
    L.Fits X .same fun i => (p i).bind (f i) (h i) := by
  refine hp.bind ?_ ?_
  · intro a ha
    obtain ⟨v, -, rfl⟩ := uniform_reads ha
    exact hf v
  · intro a ha
    obtain ⟨e, -, rfl⟩ := ha
    exact hh e

end Choosers

section Wrappers

variable {g : ι → Grammar} {p : ι → Rule} {w : Wrapper}

theorem fits_wrapper_generic [X.Elementwise] (hw : w.chooses = false)
    (hgeneric : w.isGeneric = true)
    (hlog : ∀ n, L.Holds (fun i => Run.log (stallLine (Grammar.wrap .many (g i)).name n))
      fun _ => True)
    (hp : L.Fits X .same p) : L.Fits X .same fun i => w.rule (call i) (g i) (p i) := by
  have hany : ∀ v : Value, Uniform (fun _ => True) fun _ : ι => v := fun v => uniform_const trivial
  have hlists : ∀ vs : List (ι → Value), (∀ v ∈ vs, Uniform (fun _ => True) v) →
      Uniform (fun _ => True) (listOf vs) := fun _ hvs => uniform_listOf hvs fun _ _ _ => trivial
  cases w with
  | maybe => exact hp.maybe (fun _ hv => hv) (hany .none) fun _ hr => hr
  | many => exact hp.many hlog hlists
  | first => exact hp.map_same fun v => v.shallow_item 0
  | second => exact hp.map_same fun v => v.shallow_item 1
  | atLeast n error => exact hp.atLeast (fun vs _ => hlists vs) (hany error)
  | atMost n => exact hp.atMost fun vs _ => hlists vs
  | exactly n error => exact hp.exactly (fun vs _ => hlists vs) (hany error)
  | not error => exact hp.not (hany .none) (hany error)
  | lookahead => exact hp.lookahead (fun _ => uniform_reads) fun _ he => he
  | backtrack => exact hp.backtrack (fun _ hv => hv) (fun _ he => he) fun _ hr => hr
  | map f => exact hp.map_same f.shallow_map
  | mapError f => exact hp.mapError_same f.shallow_map
  | fold => exact hp.mapError_same fun e => e.shallow_foldBranch
  | foldAll => exact hp.mapError_same fun e => shallow_pure e.foldAll
  | validate predicate error =>
    refine hp.validate (fun v hv => ?_) (hany error) (fun _ he => he) fun _ hr => hr
    obtain ⟨v, -, rfl⟩ := uniform_reads hv
    refine L.steady (predicate.shallow_map v) fun w _ => ?_
    cases htrue : w.isTrue with
    | true => exact .inl ⟨fun _ => htrue, fun hv => hv⟩
    | false => exact .inr fun _ => htrue
  | named name => exact hp
  | toParser => exact hp
  | parser name => exact hp
  | lexeme => exact hp.lexeme fits_whitespaces (fun _ hv => hv) fun _ he => he
  | skipSpaces => exact hp.skipping fits_spaces (fun _ hv => hv) fun _ he => he
  | charToString => exact hp.map_same fun v => v.shallow_toText
  | toUppercase => exact hp.map_same fun v => v.shallow_toUpper
  | toLowercase => exact hp.map_same fun v => v.shallow_toLower
  | function name => exact hp
  | recoverWith f => cases hw
  | andThen f => cases hw
  | bind onSuccess onFailure => cases hw
  | _ => cases hgeneric

/-- Wrappers that go on with nothing but what is in them. -/
theorem fits_wrapper (hX : X.Ordinary) (hw : w.chooses = false)
    (hlog : ∀ n, L.Holds (fun i => Run.log (stallLine (Grammar.wrap .many (g i)).name n))
      fun _ => True)
    (hp : L.Fits X .same p) : L.Fits X .same fun i => w.rule (call i) (g i) (p i) := by
  by_cases hgeneric : w.isGeneric = true
  · have helementwise := hX.elementwise
    exact fits_wrapper_generic hw hgeneric hlog hp
  · cases w with
    | skipLineComment start =>
      have hcomment := (fits_lineComment (L := L) (I := .all) start).optional.ordinary hX
      exact hp.skipping hcomment (fun _ hv => hv) fun _ he => he
    | skipBlockComment start stop =>
      have hcomment := (fits_blockComment (L := L) (I := .all) start stop).optional.ordinary hX
      exact hp.skipping hcomment (fun _ hv => hv) fun _ he => he
    | counted id =>
      intro input hinput
      obtain ⟨v, -, rfl⟩ := hX.inputs input hinput
      exact L.bind_steady (shallow_emit _) fun _ _ => hp _ hinput
    | _ => exact absurd rfl hgeneric

end Wrappers

/-- The outcomes that a rule run for both keeps are the same. -/
theorem uniform_passed {a : ι → Value} (hX : X.Ordinary)
    (ha : Passed X .same a ∨ a = fun _ => .none) : Uniform (fun _ => True) a := by
  rcases ha with (⟨rest, _, hrest, ⟨v, -, rfl⟩, rfl⟩ | ⟨hr, -⟩) | rfl
  · obtain ⟨rest, -, rfl⟩ := hX.inputs rest hrest
    exact uniform_const trivial
  · exact hr
  · exact uniform_const trivial

section Joints

variable {p q : ι → Rule} {j : Joint}

/-- Joints that neither apply an output to another nor keep whole outcomes. -/
theorem fits_joint_generic (hj : j ≠ .apply) (hkeeps : j ≠ .orBoth) (hp : L.Fits X .same p)
    (hq : L.Fits X .same q) : L.Fits X .same fun i => j.rule (call i) (p i) (q i) := by
  have hlists : ∀ vs : List (ι → Value), (∀ v ∈ vs, Uniform (fun _ => True) v) →
      Uniform (fun _ => True) (listOf vs) := fun _ hvs => uniform_listOf hvs fun _ _ _ => trivial
  have hpairs : ∀ v w : ι → Value, Uniform (fun _ => True) v → Uniform (fun _ => True) w →
      Uniform (fun _ => True) fun i => .tuple [v i, w i] := fun _ _ hv hw =>
    hv.map₂ (f := fun v w => .tuple [v, w]) hw fun _ _ _ _ => trivial
  have hbranch : ∀ (side : Side) (v : ι → Value), Uniform (fun _ => True) v →
      Uniform (fun _ => True) fun i => .branch side (v i) := fun side _ hv =>
    hv.map (f := .branch side) fun _ _ => trivial
  have hinvoke : ∀ f a v : ι → Value, Uniform (fun _ => True) f → Uniform (fun _ => True) a →
      Uniform (fun _ => True) v →
      L.Holds (fun i => (f i).invoke (call i) [a i, v i]) (Uniform fun _ => True) := by
    intro a b c ha hb hc
    obtain ⟨f, -, rfl⟩ := ha
    obtain ⟨a, -, rfl⟩ := hb
    obtain ⟨v, -, rfl⟩ := hc
    exact holds_invoke nofun
  cases j with
  | seq => exact hp.seq hq hpairs (hbranch .left) (hbranch .right)
  | alt => exact hp.alt hq (hbranch .left) (hbranch .right) hpairs
  | skip =>
    exact hp.handsOver.skip hq (fun _ _ h => h) (fun _ hv => hv) (fun _ he => he) fun _ he => he
  | precededBy =>
    exact hq.handsOver.precededBy hp (fun _ _ h => h) (fun _ hv => hv) (hbranch .left)
      (hbranch .right)
  | sepBy => exact hp.sepBy hq hlists
  | sepBy1 error => exact hp.sepBy1 hq (fun vs _ => hlists vs) (uniform_const trivial)
  | chainLeft =>
    exact hp.chainLeft hq (fun _ hv => hv) hinvoke (fun _ he => he) fun _ hr => hr
  | chainRight =>
    exact hp.chainRight hq (fun _ hv => hv) hinvoke (fun _ he => he) fun _ hr => hr
  | orBoth => exact absurd rfl hkeeps
  | apply => exact absurd rfl hj

/-- Joints other than the one that applies an output to another. -/
theorem fits_joint (hX : X.Ordinary) (hj : j ≠ .apply) (hp : L.Fits X .same p)
    (hq : L.Fits X .same q) : L.Fits X .same fun i => j.rule (call i) (p i) (q i) := by
  by_cases hkeeps : j = .orBoth
  · subst hkeeps
    refine hp.orBoth hq (fun a b ha hb _ => ?_) fun d e hd he => ?_
    · exact (uniform_passed hX ha).map₂ (f := fun v w => .tuple [v, w]) (uniform_passed hX hb)
        fun _ _ _ _ => trivial
    · exact hd.map₂ (f := fun v w => .tuple [v, w]) he fun _ _ _ _ => trivial
  · exact fits_joint_generic hj hkeeps hp hq

end Joints

theorem fits_surroundedBy {p left right : ι → Rule} (hp : L.Fits X .same p)
    (hleft : L.Fits X .same left) (hright : L.Fits X .same right) :
    L.Fits X .same fun i => (p i).surroundedBy (left i) (right i) :=
  (hleft.handsOver.pair hp fun _ _ h => h).handsOver.surroundedBy hright (fun _ _ h => h)
    (fun _ hv => hv)
    (fun _ he => he.map (f := fun e => .branch .left (.branch .left e)) fun _ _ => trivial)
    (fun _ he => he.map (f := fun e => .branch .left (.branch .right e)) fun _ _ => trivial)
    fun _ he => he.map (f := .branch .right) fun _ _ => trivial

end Run.Logic

end ParserCombinators
