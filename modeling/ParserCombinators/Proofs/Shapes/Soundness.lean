import ParserCombinators.Proofs.Shapes.Sets

/-!
Every reply of a grammar is an outcome with an output or an error of its sets,
if the plain functions that the grammar runs as parsers reply with outcomes.
The proof goes along the tree and, at calls, down the depth.
-/

namespace ParserCombinators

open Run Run.Logic

/-- Whatever the rule replies is an outcome. -/
def Rule.RepliesOutcomes (p : Rule) : Prop :=
  ∀ input r, (p input).Returns r → ∃ rest, r.rest? = some rest

/-- What holds of successes and failures holds of whatever such a rule replies. -/
theorem Rule.RepliesOutcomes.of_returns {p : Rule} {P : Value → Prop} {input r : Value}
    (hp : p.RepliesOutcomes) (hr : (p input).Returns r) (hsuccess : ∀ rest v, P (.success rest v))
    (hfailure : ∀ rest e, P (.failure rest e)) : P r := by
  obtain ⟨rest, hrest⟩ := hp input r hr
  cases r with
  | success rest v => exact hsuccess rest v
  | failure rest e => exact hfailure rest e
  | _ => cases hrest

theorem Run.Logic.Fits.anywhere {L : Logic Unit} {S : Shape Unit} {p : Unit → Rule}
    (hp : L.Fits (Scope.suffixes .all) S p) : L.Fits .same S p :=
  hp.ordinary Scope.ordinary_same

/-- A rule that replies with outcomes has the outputs and errors it replies with. -/
theorem Rule.RepliesOutcomes.fits {p : Rule} (hp : p.RepliesOutcomes) :
    (Logic.single True).Fits .same
      (.of (fun v => ∃ input rest, (p input).Returns (.success rest v))
        fun e => ∃ input rest, (p input).Returns (.failure rest e)) fun _ => p := by
  refine fun a _ => holds_single fun r hr => ?_
  obtain ⟨rest, hrest⟩ := hp _ r hr
  cases r with
  | success rest v => exact .success (fun _ => uniform_const trivial) (uniform_const ⟨_, _, hr⟩)
  | failure rest e => exact .failure (fun _ => uniform_const trivial) (uniform_const ⟨_, _, hr⟩)
  | _ => cases hrest

namespace Grammar

/-- The plain functions that a grammar runs as parsers reply with outcomes. -/
def BorrowsOutcomes (g : Grammar) : Prop := ∀ p, g.Borrows .all p → p.RepliesOutcomes

/-- At a depth the replies of a grammar are as its sets have them. -/
def Sound (depth : Nat) (g : Grammar) : Prop :=
  (Logic.single True).Fits .same g.shape fun _ => g.rule (callAt depth)

variable {depth : Nat}

section Leaves

theorem fits_of_leaf {l : Leaf} {p : Rule}
    (hp : (Logic.single True).Fits .same (.of l.Outputs l.Errors) fun _ => p) :
    (Logic.single True).Fits .same (leaf l).shape fun _ => p :=
  hp.loosen (fun _ hv => .leaf hv) fun _ he => .leaf he

theorem sound_value
    (hcall : ∀ g : Grammar, g.BorrowsOutcomes →
      (Logic.single True).Fits .same g.shape fun _ => callAt depth g)
    {v : Value} (hv : (leaf (.value v)).BorrowsOutcomes) : Sound depth (leaf (.value v)) := by
  refine fits_value ?_ ?_
  · intro identity f heq
    subst heq
    refine (hv _ (.function identity f)).fits.loosen ?_ ?_
    · intro v hv
      obtain ⟨input, rest, hv⟩ := hv
      exact .function hv
    · intro e he
      obtain ⟨input, rest, he⟩ := he
      exact .function he
  · intro identity g heq
    subst heq
    exact (hcall g fun p hp => hv p (.parser hp)).loosen (fun _ hv => .parser hv)
      fun _ he => .parser he

theorem sound_element (item error : Value) : Sound depth (leaf (.element item error)) := by
  refine fits_of_leaf (Fits.anywhere (fits_element (fun _ v _ _ => ?_) (uniform_const rfl)))
  refine holds_single fun passed hpassed => ?_
  cases passed with
  | true => exact .inl ⟨fun _ => rfl, uniform_const ⟨depth, hpassed⟩⟩
  | false => exact .inr fun _ => rfl

theorem sound_reply {outcome : Value} (h : (leaf (.reply outcome)).BorrowsOutcomes) :
    Sound depth (leaf (.reply outcome)) := by
  refine fits_of_leaf ((h _ (.reply outcome)).fits.loosen ?_ ?_)
  · intro v hv
    obtain ⟨input, rest, hv⟩ := hv
    exact ⟨rest, (returns_pure.mp hv).symm⟩
  · intro e he
    obtain ⟨input, rest, he⟩ := he
    exact ⟨rest, (returns_pure.mp he).symm⟩

theorem sound_leaf
    (hcall : ∀ g : Grammar, g.BorrowsOutcomes →
      (Logic.single True).Fits .same g.shape fun _ => callAt depth g)
    {l : Leaf} (hl : (leaf l).BorrowsOutcomes) : Sound depth (leaf l) := by
  cases l with
  | value v => exact sound_value hcall hl
  | element item error => exact sound_element item error
  | reply outcome => exact sound_reply hl
  | literal pattern error =>
    exact fits_of_leaf
      (fits_literal (fun _ _ _ hv => uniform_const hv) uniform_self).anywhere
  | anything error =>
    exact fits_of_leaf
      (fits_anything (fun _ _ _ _ => uniform_const trivial) uniform_self).anywhere
  | endOfInput error =>
    exact fits_of_leaf (fits_endOfInput uniform_self uniform_self).anywhere
  | always v => exact fits_of_leaf (fits_always uniform_self).anywhere
  | never error => exact fits_of_leaf (fits_never uniform_self).anywhere
  | take count error =>
    exact fits_of_leaf
      (fits_take (fun _ _ _ => uniform_const trivial) uniform_self).anywhere
  | space => exact fits_of_leaf (fits_character _ _).anywhere
  | tab => exact fits_of_leaf (fits_character _ _).anywhere
  | newline => exact fits_of_leaf (fits_character _ _).anywhere
  | carriageReturn => exact fits_of_leaf (fits_character _ _).anywhere
  | whitespace => exact fits_of_leaf (fits_characterOf _ _).anywhere
  | whitespaces => exact fits_of_leaf fits_whitespaces.anywhere
  | integer => exact fits_of_leaf fits_integer.anywhere
  | lineComment start => exact fits_of_leaf (fits_lineComment start).anywhere
  | blockComment start stop => exact fits_of_leaf (fits_blockComment start stop).anywhere
  | quotedString quotes escape escapes =>
    exact fits_of_leaf (fits_quotedString quotes escape escapes).anywhere

end Leaves

section Choosers

/-- A parser that was chosen replies as the sets of the chosen value have it. -/
theorem holds_chosen_shape
    (hcall : ∀ g : Grammar, g.BorrowsOutcomes →
      (Logic.single True).Fits .same g.shape fun _ => callAt depth g)
    {S : Shape Unit} {f : Callback} {v : Value}
    (hlaw : ∀ w, (f.apply [v]).Returns w → (leaf (.value w)).BorrowsOutcomes)
    (houtputs : ∀ w u, (f.apply [v]).Returns w → (leaf (.value w)).HasOutput u →
      S.outputs fun _ => u)
    (herrors : ∀ w e, (f.apply [v]).Returns w → (leaf (.value w)).HasError e →
      S.errors fun _ => e) :
    (Logic.single True).Holds (fun _ => f.choose (callAt depth) v)
      ((Logic.single True).Fits .same S) := by
  refine holds_choose fun w hw => ?_
  refine (sound_value hcall (hlaw w hw)).weaken ?_ ?_ ?_
  · intro a ha
    obtain ⟨u, hu, rfl⟩ := ha
    exact houtputs w u hw hu
  · intro a ha
    obtain ⟨e, he, rfl⟩ := ha
    exact herrors w e hw he
  · intro a ha
    obtain ⟨_, hfalse, _⟩ := ha
    exact hfalse.elim

variable {g : Grammar}

theorem hasOutput_of_reads {v : Unit → Value}
    (h : (g.shape.seen .same fun _ => g.run depth).reads v) :
    g.HasOutput (v ()) ∧ g.CanOutput .all (v ()) := by
  have hcan := canOutput_of_reads (I := .all) (fun _ _ _ => trivial) h
  refine ⟨?_, hcan.elim fun _ h => h⟩
  obtain ⟨⟨u, hu, rfl⟩, -⟩ | ⟨_, ⟨⟨_, hfalse, _⟩, _⟩, _⟩ := h
  · exact hu
  · exact hfalse.elim

theorem hasError_of_errors {e : Unit → Value}
    (h : (g.shape.seen .same fun _ => g.run depth).errors e) :
    g.HasError (e ()) ∧ g.CanFail .all (e ()) := by
  have hcan := canFail_of_errors (I := .all) (fun _ _ _ => trivial) h
  refine ⟨?_, hcan.elim fun _ h => h⟩
  obtain ⟨⟨u, hu, rfl⟩, -⟩ := h
  exact hu

theorem sound_chooser
    (hcall : ∀ g : Grammar, g.BorrowsOutcomes →
      (Logic.single True).Fits .same g.shape fun _ => callAt depth g)
    {w : Wrapper} (hw : w.chooses = true) (h : (wrap w g).BorrowsOutcomes)
    (hg : Sound depth g) : Sound depth (wrap w g) := by
  have hlaw : ∀ v, CanChoose .all w g v → (leaf (.value v)).BorrowsOutcomes :=
    fun v hv p hp => h p (.chosen hv hp)
  have hseen : (Logic.single True).Fits .same (g.shape.seen .same fun _ => g.run depth)
      fun _ => g.rule (callAt depth) := by
    rw [run_eq]
    exact Fits.seen hg
  cases w with
  | recoverWith f =>
    refine hseen.recoverWith (fun e he => ?_)
      (fun _ hv => hv.1.mono fun _ hv => .kept rfl hv) fun _ hr => hr.1
    obtain ⟨he, hfail⟩ := hasError_of_errors he
    exact holds_chosen_shape hcall (fun w hw => hlaw w (.recoverWith hfail hw))
      (fun _ _ hw hu => uniform_const (.recovered he hw hu))
      fun _ _ hw hd => uniform_const (.recovered he hw hd)
  | andThen f =>
    refine hseen.andThen (fun v hv => ?_) (fun _ he => he.1.mono fun _ he => .kept rfl he)
      fun _ hr => hr.1
    obtain ⟨hv, hout⟩ := hasOutput_of_reads hv
    exact holds_chosen_shape hcall (fun w hw => hlaw w (.andThen hout hw))
      (fun _ _ hw hu => uniform_const (.andThen hv hw hu))
      fun _ _ hw hd => uniform_const (.andThen hv hw hd)
  | bind onSuccess onFailure =>
    refine hseen.bind (fun v hv => ?_) fun e he => ?_
    · obtain ⟨hv, hout⟩ := hasOutput_of_reads hv
      exact holds_chosen_shape hcall (fun w hw => hlaw w (.onSuccess hout hw))
        (fun _ _ hw hu => uniform_const (.onSuccess hv hw hu))
        fun _ _ hw hd => uniform_const (.onSuccess hv hw hd)
    · obtain ⟨he, hfail⟩ := hasError_of_errors he
      exact holds_chosen_shape hcall (fun w hw => hlaw w (.onFailure hfail hw))
        (fun _ _ hw hu => uniform_const (.onFailure he hw hu))
        fun _ _ hw hd => uniform_const (.onFailure he hw hd)
  | _ => cases hw

end Choosers

section Nodes

variable {g h left right : Grammar}

/-- The outputs of a wrapper that changes them one by one. -/
theorem holds_outputMap {w : Wrapper} {change : Value → Run Value}
    (hw : w.outputMap? = some change) (hshallow : ∀ v, (change v).Shallow) {v : Unit → Value}
    (hv : Uniform g.HasOutput v) :
    (Logic.single True).Holds (fun _ => change (v ())) (Uniform (wrap w g).HasOutput) := by
  obtain ⟨v, hv, rfl⟩ := hv
  exact (Logic.single True).steady (hshallow v) fun u hu => uniform_const (.mapped hw hv hu)

theorem holds_errorMap {w : Wrapper} {change : Value → Run Value}
    (hw : w.errorMap? = some change) (hshallow : ∀ v, (change v).Shallow) {e : Unit → Value}
    (he : Uniform g.HasError e) :
    (Logic.single True).Holds (fun _ => change (e ())) (Uniform (wrap w g).HasError) := by
  obtain ⟨e, he, rfl⟩ := he
  exact (Logic.single True).steady (hshallow e) fun d hd => uniform_const (.mapped hw he hd)

theorem sound_wrapper {w : Wrapper} (hw : w.chooses = false) (hg : Sound depth g) :
    Sound depth (wrap w g) := by
  have hnone : ∀ r : Unit → Value, g.shape.strays r → (wrap w g).shape.strays r := fun _ hr => hr
  have hkept : w.keepsOutputs = true → ∀ v : Unit → Value, g.shape.outputs v →
      (wrap w g).shape.outputs v := fun hw _ hv => hv.mono fun _ hv => .kept hw hv
  have hkept' : w.keepsErrors = true → ∀ e : Unit → Value, g.shape.errors e →
      (wrap w g).shape.errors e := fun hw _ he => he.mono fun _ he => .kept hw he
  have hlists : ∀ vs : List (Unit → Value), w.Lists vs.length →
      (∀ v ∈ vs, Uniform g.HasOutput v) → Uniform (wrap w g).HasOutput (listOf vs) :=
    fun vs hlength hvs => uniform_listOf hvs fun ws hws hmem => .listed (hws ▸ hlength) hmem
  cases w with
  | maybe => exact Fits.maybe hg (hkept rfl) (uniform_const (.absent rfl)) hnone
  | many =>
    exact Fits.many hg (fun _ => (Logic.single True).steady (shallow_log _) fun _ _ => trivial)
      fun vs => hlists vs trivial
  | atLeast n error => exact Fits.atLeast hg hlists (uniform_const (.given rfl))
  | atMost n => exact Fits.atMost hg hlists
  | exactly n error => exact Fits.exactly hg hlists (uniform_const (.given rfl))
  | not error => exact Fits.not hg (uniform_const (.absent rfl)) (uniform_const (.given rfl))
  | lookahead =>
    refine Fits.lookahead hg ?_ (hkept' rfl)
    intro v hv
    rcases hv with hv | ⟨_, ⟨_, hfalse, _⟩, _⟩
    · exact hkept rfl v hv
    · exact hfalse.elim
  | backtrack => exact Fits.backtrack hg (hkept rfl) (hkept' rfl) hnone
  | first =>
    exact Fits.map hg (fun _ => holds_outputMap rfl fun v => v.shallow_item 0) (hkept' rfl) hnone
  | second =>
    exact Fits.map hg (fun _ => holds_outputMap rfl fun v => v.shallow_item 1) (hkept' rfl) hnone
  | map f => exact Fits.map hg (fun _ => holds_outputMap rfl f.shallow_map) (hkept' rfl) hnone
  | charToString =>
    exact Fits.map hg (fun _ => holds_outputMap rfl Value.shallow_toText) (hkept' rfl) hnone
  | toUppercase =>
    exact Fits.map hg (fun _ => holds_outputMap rfl Value.shallow_toUpper) (hkept' rfl) hnone
  | toLowercase =>
    exact Fits.map hg (fun _ => holds_outputMap rfl Value.shallow_toLower) (hkept' rfl) hnone
  | mapError f =>
    exact Fits.mapError hg (hkept rfl) (fun _ => holds_errorMap rfl f.shallow_map) hnone
  | fold =>
    exact Fits.mapError hg (hkept rfl) (fun _ => holds_errorMap rfl Value.shallow_foldBranch) hnone
  | foldAll =>
    exact Fits.mapError hg (hkept rfl) (fun _ => holds_errorMap rfl fun _ => shallow_pure _) hnone
  | validate predicate error =>
    refine Fits.validate hg ?_ (uniform_const (.given rfl)) (hkept' rfl) hnone
    intro v hv
    rcases hv with ⟨v, hv, rfl⟩ | ⟨_, ⟨_, hfalse, _⟩, _⟩
    · refine (Logic.single True).steady (predicate.shallow_map v) fun a ha => ?_
      cases htrue : a.isTrue with
      | true => exact .inl ⟨fun _ => htrue, fun _ => uniform_const (.validated hv ha htrue)⟩
      | false => exact .inr fun _ => htrue
    · exact hfalse.elim
  | named name => exact hg.weaken (hkept rfl) (hkept' rfl) hnone
  | toParser => exact hg.weaken (hkept rfl) (hkept' rfl) hnone
  | parser name => exact hg.weaken (hkept rfl) (hkept' rfl) hnone
  | function name => exact hg.weaken (hkept rfl) (hkept' rfl) hnone
  | counted id =>
    intro input hinput
    exact (Logic.single True).bind_steady (shallow_emit _) fun _ _ =>
      hg.weaken (hkept rfl) (hkept' rfl) hnone input hinput
  | lexeme => exact Fits.lexeme hg fits_whitespaces.anywhere (hkept rfl) (hkept' rfl)
  | skipSpaces => exact Fits.skipping hg fits_spaces.anywhere (hkept rfl) (hkept' rfl)
  | skipLineComment start =>
    exact Fits.skipping hg (fits_lineComment start).optional.anywhere (hkept rfl) (hkept' rfl)
  | skipBlockComment start stop =>
    exact Fits.skipping hg (fits_blockComment start stop).optional.anywhere (hkept rfl)
      (hkept' rfl)
  | _ => cases hw

/-- An operator of a chain is a function; no parser takes two arguments. -/
theorem returns_invoke_two {f v w u : Value} {call : Grammar → Rule}
    (h : (f.invoke call [v, w]).Returns u) :
    ∃ identity callback, f = .function identity callback ∧ (callback.apply [v, w]).Returns u := by
  cases f with
  | function identity callback => exact ⟨identity, callback, rfl, h⟩
  | _ => exact absurd h not_returns_fail

theorem sound_chainLeft (hg : Sound depth g) (hh : Sound depth h) :
    Sound depth (join .chainLeft g h) := by
  refine Fits.chainLeft hg hh (fun _ hv => hv.mono fun _ hv => .leftTerm hv) ?_
    (fun _ he => he.mono fun _ he => .chainLeft he) fun _ hr => hr
  intro a b c ha hb hc
  obtain ⟨f, hf, rfl⟩ := ha
  obtain ⟨a, ha, rfl⟩ := hb
  obtain ⟨v, hv, rfl⟩ := hc
  refine holds_single fun u hu => ?_
  obtain ⟨identity, callback, rfl, hu⟩ := returns_invoke_two hu
  exact uniform_const (.chainLeft ha hf hv hu)

theorem sound_chainRight (hg : Sound depth g) (hh : Sound depth h) :
    Sound depth (join .chainRight g h) := by
  refine Fits.chainRight hg hh (fun _ hv => hv.mono fun _ hv => .rightTerm hv) ?_
    (fun _ he => he.mono fun _ he => .chainRight he) fun _ hr => hr
  intro a b c ha hb hc
  obtain ⟨f, hf, rfl⟩ := ha
  obtain ⟨v, hv, rfl⟩ := hb
  obtain ⟨a, ha, rfl⟩ := hc
  refine holds_single fun u hu => ?_
  obtain ⟨identity, callback, rfl, hu⟩ := returns_invoke_two hu
  exact uniform_const (.chainRight hv hf ha hu)

theorem success_of_passed {a : Unit → Value} (ha : Passed .same g.shape a) :
    ∃ rest v, g.HasOutput v ∧ a = fun _ => .success rest v := by
  rcases ha with ⟨rest, _, -, ⟨v, hv, rfl⟩, rfl⟩ | ⟨⟨_, hfalse, _⟩, _⟩
  · exact ⟨rest (), v, hv, rfl⟩
  · exact hfalse.elim

theorem sound_orBoth (hg : Sound depth g) (hh : Sound depth h) :
    Sound depth (join .orBoth g h) := by
  refine Fits.orBoth hg hh ?_ fun _ _ hd he => hd.map₂ (f := fun d e => .tuple [d, e]) he
    fun _ _ hd he => .orBoth hd he
  intro a b ha hb hone
  rcases ha with ha | rfl
  · obtain ⟨rest, u, hu, rfl⟩ := success_of_passed ha
    rcases hb with hb | rfl
    · obtain ⟨rest', v, hv, rfl⟩ := success_of_passed hb
      exact uniform_const (.both hu hv)
    · exact uniform_const (.onlyLeft hu)
  · rcases hb with hb | rfl
    · obtain ⟨rest, v, hv, rfl⟩ := success_of_passed hb
      exact uniform_const (.onlyRight hv)
    · rcases hone with hnone | hnone
      · obtain ⟨rest, u, -, heq⟩ := success_of_passed hnone
        cases congrFun heq ()
      · obtain ⟨rest, v, -, heq⟩ := success_of_passed hnone
        cases congrFun heq ()

theorem sound_apply (hg : Sound depth g) (hh : Sound depth h) :
    Sound depth (join .apply g h) := by
  refine Fits.apply hg hh ?_ (fun _ he => he.mono fun _ he => .applyFirst he)
    (fun _ he => he.mono fun _ he => .applySecond he) (fun _ hr => hr) fun _ hr => hr
  intro a b ha hb
  obtain ⟨a, ha, rfl⟩ := ha
  obtain ⟨v, hv, rfl⟩ := hb
  refine (Logic.single True).bind_steady v.shallow_iterate fun arguments harguments => ?_
  exact holds_single fun u hu => uniform_const (.apply ha hv harguments hu)

theorem sound_joint {j : Joint} (hg : Sound depth g) (hh : Sound depth h) :
    Sound depth (join j g h) := by
  cases j with
  | seq =>
    exact Fits.seq hg hh
      (fun _ _ hu hv => hu.map₂ (f := fun u v => .tuple [u, v]) hv fun _ _ hu hv => .pair hu hv)
      (fun _ he => he.map fun _ he => .first he) fun _ he => he.map fun _ he => .second he
  | alt =>
    exact Fits.alt hg hh (fun _ hv => hv.map fun _ hv => .left hv)
      (fun _ hv => hv.map fun _ hv => .right hv)
      fun _ _ hd he => hd.map₂ (f := fun d e => .tuple [d, e]) he fun _ _ hd he => .alt hd he
  | skip =>
    exact (Fits.handsOver hg).skip hh (fun _ _ h => h) (fun _ hv => hv.mono fun _ hv => .skip hv)
      (fun _ he => he.mono fun _ he => .skipFirst he)
      fun _ he => he.mono fun _ he => .skipSecond he
  | precededBy =>
    exact (Fits.handsOver hh).precededBy hg (fun _ _ h => h)
      (fun _ hv => hv.mono fun _ hv => .precededBy hv) (fun _ he => he.map fun _ he => .before he)
      fun _ he => he.map fun _ he => .after he
  | sepBy => exact Fits.sepBy hg hh fun vs hvs => uniform_listOf hvs fun _ _ hws => .sepBy hws
  | sepBy1 error =>
    exact Fits.sepBy1 hg hh
      (fun vs hone hvs => uniform_listOf hvs fun _ hlength hws => .sepBy1 (hlength ▸ hone) hws)
      (uniform_const .sepBy1)
  | chainLeft => exact sound_chainLeft hg hh
  | chainRight => exact sound_chainRight hg hh
  | orBoth => exact sound_orBoth hg hh
  | apply => exact sound_apply hg hh

theorem sound_surroundedBy (hg : Sound depth g) (hleft : Sound depth left)
    (hright : Sound depth right) : Sound depth (surroundedBy g left right) :=
  ((Fits.handsOver hleft).pair hg fun _ _ h => h).handsOver.surroundedBy hright (fun _ _ h => h)
    (fun _ hv => hv.mono fun _ hv => .surroundedBy hv)
    (fun _ he => he.map (f := fun e => .branch .left (.branch .left e)) fun _ he => .opening he)
    (fun _ he => he.map (f := fun e => .branch .left (.branch .right e)) fun _ he => .middle he)
    fun _ he => he.map fun _ he => .closing he

end Nodes

/-- The step: if calls reply as the sets have it, so does the rule of a grammar. -/
theorem sound_rule
    (hcall : ∀ g : Grammar, g.BorrowsOutcomes →
      (Logic.single True).Fits .same g.shape fun _ => callAt depth g) :
    ∀ g : Grammar, g.BorrowsOutcomes → Sound depth g
  | leaf l, h => sound_leaf hcall h
  | wrap w g, h => by
    have hg := sound_rule hcall g fun p hp => h p (.wrap hp)
    cases hw : w.chooses with
    | true => exact sound_chooser hcall hw h hg
    | false => exact sound_wrapper hw hg
  | join j g k, h =>
    sound_joint (sound_rule hcall g fun p hp => h p (.joinLeft hp))
      (sound_rule hcall k fun p hp => h p (.joinRight hp))
  | surroundedBy g left right, h =>
    sound_surroundedBy (sound_rule hcall g fun p hp => h p (.inside hp))
      (sound_rule hcall left fun p hp => h p (.before hp))
      (sound_rule hcall right fun p hp => h p (.after hp))
  | ref x, _ => fun _ _ => allowsUnwired_single
  | recursive x body, h =>
    (hcall (unfold x body) fun p hp => h p (.recursive hp)).loosen (fun _ hv => .recursive hv)
      fun _ he => .recursive he
  | recursiveEager x input body, _ => fun _ _ => allowsUnwired_single
  | handle x body, h =>
    (hcall (unfold x body) fun p hp => h p (.handle hp)).loosen (fun _ hv => .handle hv)
      fun _ he => .handle he

theorem sound_run (depth : Nat) : ∀ g : Grammar, g.BorrowsOutcomes → Sound depth g := by
  induction depth with
  | zero => exact sound_rule fun _ _ _ _ _ => ⟨fun _ => trivial, fun _ hr => by cases hr⟩
  | succ depth ih =>
    refine sound_rule fun g hg => ?_
    show (Logic.single True).Fits .same g.shape fun _ => g.run depth
    rw [run_eq]
    exact ih g hg

/-- What a grammar returns is a reply as its shape has it. -/
theorem reply_of_run {g : Grammar} (h : ∀ p, g.Borrows .all p → p.RepliesOutcomes) {depth : Nat}
    {input r : Value} (hr : (g.run depth input).Returns r) :
    Reply (ι := Unit) .same g.shape (fun _ => input) fun _ => r := by
  rw [run_eq] at hr
  obtain ⟨made, hr⟩ := hr
  exact (sound_run depth g h (fun _ => input) (uniform_const trivial) made).2 r hr

theorem outcome_of_reply {X : Scope Unit} {g : Grammar} {input r : Unit → Value}
    (hr : Reply X g.shape input r) :
    (∃ rest v, r () = .success rest v ∧ g.HasOutput v) ∨
      ∃ rest e, r () = .failure rest e ∧ g.HasError e := by
  rcases hr with @⟨rest, _, -, ⟨v, hv, rfl⟩⟩ | @⟨rest, _, -, ⟨e, he, rfl⟩⟩ | ⟨⟨_, hfalse, _⟩, _⟩
  · exact .inl ⟨rest (), v, rfl, hv⟩
  · exact .inr ⟨rest (), e, rfl, he⟩
  · exact hfalse.elim

/-- Grammars reply with outcomes if the plain functions in them do. -/
theorem repliesOutcomes_run {g : Grammar} (h : ∀ p, g.Borrows .all p → p.RepliesOutcomes)
    {depth : Nat} : (g.run depth).RepliesOutcomes := by
  intro input r hr
  rcases outcome_of_reply (reply_of_run h hr) with ⟨rest, v, rfl, -⟩ | ⟨rest, e, rfl, -⟩
  · exact ⟨rest, rfl⟩
  · exact ⟨rest, rfl⟩

/-- Whatever a grammar replies is a success with one of its outputs or a
failure with one of its errors. -/
theorem run_hasOutput_or_hasError {g : Grammar}
    (h : ∀ p, g.Borrows .all p → p.RepliesOutcomes) {depth : Nat} {input r : Value}
    (hr : (g.run depth input).Returns r) :
    (∃ rest v, r = .success rest v ∧ g.HasOutput v) ∨
      ∃ rest e, r = .failure rest e ∧ g.HasError e := by
  have hreply := reply_of_run h hr
  exact outcome_of_reply hreply

/-- A sequence whose second part is a plain function with one reply. -/
def thenReply : Grammar :=
  join .seq (leaf (.literal (.bytes [1]) .none)) (leaf (.reply (.success (.bytes []) (.int 2))))

theorem run_hasOutput_or_hasError_thenReply :
    (∀ p, thenReply.Borrows .all p → p.RepliesOutcomes) ∧
      (thenReply.run 0 (.bytes [1])).Returns
        (.success (.bytes []) (.tuple [.bytes [1], .int 2])) ∧
      ((∃ rest v, Value.success (.bytes []) (.tuple [.bytes [1], .int 2]) = .success rest v ∧
          thenReply.HasOutput v) ∨
        ∃ rest e, Value.success (.bytes []) (.tuple [.bytes [1], .int 2]) = .failure rest e ∧
          thenReply.HasError e) := by
  have hlaw : ∀ p, thenReply.Borrows .all p → p.RepliesOutcomes := by
    intro p hp
    cases hp with
    | joinLeft hp => cases hp
    | joinRight hp =>
      cases hp
      intro input r hr
      exact ⟨_, by rw [returns_pure.mp hr]; rfl⟩
  have hreturns : (thenReply.run 0 (.bytes [1])).Returns
      (.success (.bytes []) (.tuple [.bytes [1], .int 2])) := ⟨0, rfl⟩
  exact ⟨hlaw, hreturns, run_hasOutput_or_hasError hlaw hreturns⟩

/-- Parsers for which no rule gives an error. -/
def neverFails : Grammar → Bool
  | leaf (.always _) => true
  | leaf .whitespaces => true
  | wrap .maybe _ => true
  | wrap .many _ => true
  | wrap (.atMost _) _ => true
  | join .sepBy _ _ => true
  | _ => false

theorem not_hasError {g : Grammar} (hg : g.neverFails = true) (e : Value) : ¬ g.HasError e := by
  intro he
  unfold neverFails at hg
  split at hg
  case h_7 => cases hg
  all_goals cases he
  all_goals first
    | assumption
    | contradiction

/-- A parser that never fails replies with a success. -/
theorem isTrue_of_neverFails {g : Grammar} (hg : g.neverFails = true)
    (h : ∀ p, g.Borrows .all p → p.RepliesOutcomes) {depth : Nat} {input r : Value}
    (hr : (g.run depth input).Returns r) : r.isTrue = true := by
  rcases outcome_of_reply (reply_of_run h hr) with ⟨rest, v, rfl, -⟩ | ⟨rest, e, -, he⟩
  · rfl
  · exact absurd he (not_hasError hg e)

end Grammar

end ParserCombinators
