import ParserCombinators.Grammar.Rule
import ParserCombinators.Proofs.Handles.Alike

/-!
Grammars that differ only in the names of their parsers. Where one has a parser,
the other may have it under another name, or inside a plain function that just
calls it. That is so wherever a parser stands, be it a part of another parser,
the test of an element, or what a function returns for a parse to go on with.
Values, errors and other functions are the same in both.
-/

namespace ParserCombinators

/-- The wrappers that leave a parser as it is but for its name. -/
inductive Wrapper.OnlyNames : Wrapper → Prop
  | named (name : Text) : OnlyNames (.named name)
  | toParser : OnlyNames .toParser
  | parser (name : Option Text) : OnlyNames (.parser name)
  | function (name : Option Text) : OnlyNames (.function name)

theorem Wrapper.OnlyNames.closed {n : Wrapper} (hn : n.OnlyNames) : n.Closed := by
  cases hn <;> exact fun _ _ => rfl

/-- Whether a grammar can be called: a value in the place of a parser may be none. -/
def Grammar.isCallable : Grammar → Bool
  | leaf (.value v) => v.isCallable
  | _ => true

section Renamed

mutual

/-- Values in the place of a parser. One may be a parser made from the other. -/
inductive Value.Renamed : Value → Value → Prop
  | closed {v : Value} (hv : v.Closed) : Value.Renamed v v
  | parser {i j : Identity} {g g' : Grammar} (hg : Grammar.Renamed g g') :
      Value.Renamed (.parser i g) (.parser j g')
  | made {i : Identity} {v v' : Value} (hv : Value.Renamed v v') (hcall : v'.isCallable = true) :
      Value.Renamed v (.parser i (.leaf (.value v')))
  | unmade {i : Identity} {v v' : Value} (hv : Value.Renamed v v') (hcall : v.isCallable = true) :
      Value.Renamed (.parser i (.leaf (.value v))) v'
  | inserted {i j : Identity} {v : Value} {n : Wrapper} {g' : Grammar} (hn : n.OnlyNames)
      (hv : Value.Renamed v (.parser i g')) : Value.Renamed v (.parser j (.wrap n g'))
  | removed {i j : Identity} {v' : Value} {n : Wrapper} {g : Grammar} (hn : n.OnlyNames)
      (hv : Value.Renamed (.parser i g) v') : Value.Renamed (.parser j (.wrap n g)) v'

/-- Functions that return parsers. -/
inductive Callback.Renamed : Callback → Callback → Prop
  | closed {f : Callback} (hf : f.Closed) : Callback.Renamed f f
  | const {v v' : Value} (hv : Value.Renamed v v') : Callback.Renamed (.const v) (.const v')
  | compose {functions : List Callback} {f f' : Callback}
      (hfunctions : (Callback.compose functions).Closed) (hf : Callback.Renamed f f') :
      Callback.Renamed (.compose (functions ++ [f])) (.compose (functions ++ [f']))
  | named {name name' : Text} {f f' : Callback} (hf : Callback.Renamed f f') :
      Callback.Renamed (.named name f) (.named name' f')
  | parser {i j : Nat} {g g' : Grammar} (hg : Grammar.Renamed g g') :
      Callback.Renamed (.parser i g) (.parser j g')
  | select {choice choice' : Choice} (hchoice : Choice.Renamed choice choice') :
      Callback.Renamed (.select choice) (.select choice')
  | exactlyOf {g g' : Grammar} {error : Value} (hg : Grammar.Renamed g g') (herror : error.Closed) :
      Callback.Renamed (.exactlyOf g error) (.exactlyOf g' error)
  | atLeastOf {g g' : Grammar} {error : Value} (hg : Grammar.Renamed g g') (herror : error.Closed) :
      Callback.Renamed (.atLeastOf g error) (.atLeastOf g' error)

inductive Choice.Renamed : Choice → Choice → Prop
  | otherwise {i j : Nat} {g g' : Grammar} (hg : Grammar.Renamed g g') :
      Choice.Renamed (.otherwise i g) (.otherwise j g')
  | when {key : Value} {i j : Nat} {g g' : Grammar} {next next' : Choice}
      (hkey : key.Closed) (hg : Grammar.Renamed g g') (hnext : Choice.Renamed next next') :
      Choice.Renamed (.when key i g next) (.when key j g' next')

inductive Leaf.Renamed : Leaf → Leaf → Prop
  | closed {l : Leaf} (hl : l.Closed) : Leaf.Renamed l l
  | value {v v' : Value} (hv : Value.Renamed v v') : Leaf.Renamed (.value v) (.value v')
  | element {item item' error : Value} (hitem : Value.Renamed item item') (herror : error.Closed) :
      Leaf.Renamed (.element item error) (.element item' error)

inductive Wrapper.Renamed : Wrapper → Wrapper → Prop
  | closed {w : Wrapper} (hw : w.Closed) : Wrapper.Renamed w w
  | recoverWith {f f' : Callback} (hf : Callback.Renamed f f') :
      Wrapper.Renamed (.recoverWith f) (.recoverWith f')
  | andThen {f f' : Callback} (hf : Callback.Renamed f f') :
      Wrapper.Renamed (.andThen f) (.andThen f')
  | bind {f f' h h' : Callback} (hf : Callback.Renamed f f') (hh : Callback.Renamed h h') :
      Wrapper.Renamed (.bind f h) (.bind f' h')

/-- Names may be inserted and removed anywhere, around anything that can be called. -/
inductive Grammar.Renamed : Grammar → Grammar → Prop
  | inserted {n : Wrapper} {g g' : Grammar} (hn : n.OnlyNames) (hg : Grammar.Renamed g g')
      (hcall : g'.isCallable = true) : Grammar.Renamed g (.wrap n g')
  | removed {n : Wrapper} {g g' : Grammar} (hn : n.OnlyNames) (hg : Grammar.Renamed g g')
      (hcall : g.isCallable = true) : Grammar.Renamed (.wrap n g) g'
  | closed {g : Grammar} (hg : g.Closed) : Grammar.Renamed g g
  | leaf {l l' : Leaf} (hl : Leaf.Renamed l l') : Grammar.Renamed (.leaf l) (.leaf l')
  | wrap {w w' : Wrapper} {g g' : Grammar} (hw : Wrapper.Renamed w w') (hg : Grammar.Renamed g g') :
      Grammar.Renamed (.wrap w g) (.wrap w' g')
  | join {j : Joint} {g g' h h' : Grammar} (hj : j.Closed) (hg : Grammar.Renamed g g')
      (hh : Grammar.Renamed h h') : Grammar.Renamed (.join j g h) (.join j g' h')
  | surroundedBy {g g' left left' right right' : Grammar} (hg : Grammar.Renamed g g')
      (hleft : Grammar.Renamed left left') (hright : Grammar.Renamed right right') :
      Grammar.Renamed (.surroundedBy g left right) (.surroundedBy g' left' right')
  | ref (x : Text) : Grammar.Renamed (.ref x) (.ref x)
  | recursive {x : Text} {body body' : Grammar} (hbody : Grammar.Renamed body body') :
      Grammar.Renamed (.recursive x body) (.recursive x body')
  | handle {x : Text} {body body' : Grammar} (hbody : Grammar.Renamed body body') :
      Grammar.Renamed (.handle x body) (.handle x body')

end

end Renamed

section Symmetry

mutual

theorem Value.Renamed.symm : ∀ {v v' : Value}, Value.Renamed v v' → Value.Renamed v' v
  | _, _, .closed hv => .closed hv
  | _, _, .parser hg => .parser hg.symm
  | _, _, .made hv hcall => .unmade hv.symm hcall
  | _, _, .unmade hv hcall => .made hv.symm hcall
  | _, _, .inserted hn hv => .removed hn hv.symm
  | _, _, .removed hn hv => .inserted hn hv.symm

theorem Callback.Renamed.symm : ∀ {f f' : Callback}, Callback.Renamed f f' → Callback.Renamed f' f
  | _, _, .closed hf => .closed hf
  | _, _, .const hv => .const hv.symm
  | _, _, .compose hfunctions hf => .compose hfunctions hf.symm
  | _, _, .named hf => .named hf.symm
  | _, _, .parser hg => .parser hg.symm
  | _, _, .select hchoice => .select hchoice.symm
  | _, _, .exactlyOf hg herror => .exactlyOf hg.symm herror
  | _, _, .atLeastOf hg herror => .atLeastOf hg.symm herror

theorem Choice.Renamed.symm : ∀ {c c' : Choice}, Choice.Renamed c c' → Choice.Renamed c' c
  | _, _, .otherwise hg => .otherwise hg.symm
  | _, _, .when hkey hg hnext => .when hkey hg.symm hnext.symm

theorem Leaf.Renamed.symm : ∀ {l l' : Leaf}, Leaf.Renamed l l' → Leaf.Renamed l' l
  | _, _, .closed hl => .closed hl
  | _, _, .value hv => .value hv.symm
  | _, _, .element hitem herror => .element hitem.symm herror

theorem Wrapper.Renamed.symm : ∀ {w w' : Wrapper}, Wrapper.Renamed w w' → Wrapper.Renamed w' w
  | _, _, .closed hw => .closed hw
  | _, _, .recoverWith hf => .recoverWith hf.symm
  | _, _, .andThen hf => .andThen hf.symm
  | _, _, .bind hf hh => .bind hf.symm hh.symm

theorem Grammar.Renamed.symm : ∀ {g g' : Grammar}, Grammar.Renamed g g' → Grammar.Renamed g' g
  | _, _, .inserted hn hg hcall => .removed hn hg.symm hcall
  | _, _, .removed hn hg hcall => .inserted hn hg.symm hcall
  | _, _, .closed hg => .closed hg
  | _, _, .leaf hl => .leaf hl.symm
  | _, _, .wrap hw hg => .wrap hw.symm hg.symm
  | _, _, .join hj hg hh => .join hj hg.symm hh.symm
  | _, _, .surroundedBy hg hleft hright => .surroundedBy hg.symm hleft.symm hright.symm
  | _, _, .ref x => .ref x
  | _, _, .recursive hbody => .recursive hbody.symm
  | _, _, .handle hbody => .handle hbody.symm

end

end Symmetry

section Values

theorem Value.Renamed.isCallable_eq : ∀ {v v' : Value}, Value.Renamed v v' →
    v.isCallable = v'.isCallable
  | _, _, .closed _ => rfl
  | _, _, .parser _ => rfl
  | _, _, .made hv hcall => hv.isCallable_eq.trans hcall
  | _, _, .unmade hv hcall => hcall.symm.trans hv.isCallable_eq
  | _, _, .inserted _ hv => hv.isCallable_eq
  | _, _, .removed _ hv => hv.isCallable_eq

/-- A name around a grammar makes a parser of it, whatever it is as a value. -/
theorem Grammar.renamed_toValue_wrap {v : Value} {n : Wrapper} {g' : Grammar} (hn : n.OnlyNames)
    (hcall : g'.isCallable = true) {j : Nat} (hv : Value.Renamed v (g'.toValue j)) :
    Value.Renamed v ((wrap n g').toValue j) := by
  have hparser : g'.toValue j = .parser (.given j) g' →
      Value.Renamed v ((wrap n g').toValue j) := by
    intro heq
    rw [heq] at hv
    exact .inserted hn hv
  cases g' with
  | leaf l =>
    cases l with
    | value v' =>
      have hmade : Value.Renamed v (.parser (.given j) (.leaf (.value v'))) := .made hv hcall
      exact .inserted hn hmade
    | _ => exact hparser rfl
  | _ => exact hparser rfl

theorem Leaf.Closed.value {v : Value} (h : (Leaf.value v).Closed) : v.Closed :=
  fun x s => Leaf.value.inj (h x s)

theorem Leaf.Renamed.toValue {l l' : Leaf} (h : Leaf.Renamed l l') (i j : Nat) :
    Value.Renamed ((Grammar.leaf l).toValue i) ((Grammar.leaf l').toValue j) := by
  cases h with
  | closed hl =>
    cases l with
    | value v => exact .closed hl.value
    | _ => exact .parser (.leaf (.closed hl))
  | value hv => exact hv
  | element hitem herror => exact .parser (.leaf (.element hitem herror))

theorem Grammar.Renamed.toValue (i j : Nat) : ∀ {g g' : Grammar}, Grammar.Renamed g g' →
    Value.Renamed (g.toValue i) (g'.toValue j)
  | _, _, .inserted hn hg hcall => renamed_toValue_wrap hn hcall (hg.toValue i j)
  | _, _, .removed hn hg hcall => (renamed_toValue_wrap hn hcall (hg.toValue i j).symm).symm
  | .leaf _, _, .closed hg =>
    Leaf.Renamed.toValue (.closed fun x s => Grammar.leaf.inj (hg x s)) i j
  | .wrap .., _, .closed hg => .parser (.closed hg)
  | .join .., _, .closed hg => .parser (.closed hg)
  | .surroundedBy .., _, .closed hg => .parser (.closed hg)
  | .ref _, _, .closed hg => .parser (.closed hg)
  | .recursive .., _, .closed hg => .parser (.closed hg)
  | .recursiveEager .., _, .closed hg => .parser (.closed hg)
  | .handle .., _, .closed hg => .parser (.closed hg)
  | _, _, .leaf hl => hl.toValue i j
  | _, _, .wrap hw hg => .parser (.wrap hw hg)
  | _, _, .join hj hg hh => .parser (.join hj hg hh)
  | _, _, .surroundedBy hg hleft hright => .parser (.surroundedBy hg hleft hright)
  | _, _, .ref x => .parser (.ref x)
  | _, _, .recursive hbody => .parser (.recursive hbody)
  | _, _, .handle hbody => .parser (.handle hbody)

theorem Value.Renamed.ite {v v' w w' : Value} (b : Bool) (hv : Value.Renamed v v')
    (hw : Value.Renamed w w') : Value.Renamed (if b then v else w) (if b then v' else w') := by
  cases b with
  | true => exact hv
  | false => exact hw

theorem Choice.Renamed.find (v : Value) : ∀ {c c' : Choice}, Choice.Renamed c c' →
    Value.Renamed (c.find v) (c'.find v)
  | _, _, .otherwise hg => hg.toValue _ _
  | _, _, .when _ hg hnext => .ite _ (hg.toValue _ _) (Choice.Renamed.find v hnext)

end Values

section Substitution

variable {x : Text} {s s' : Grammar}

theorem Value.isCallable_subst (x : Text) (s : Grammar) (v : Value) :
    (v.subst x s).isCallable = v.isCallable := by
  cases v <;> rfl

theorem Grammar.isCallable_subst {g : Grammar} (hs : s.isCallable = true)
    (hg : g.isCallable = true) : (Grammar.subst x s g).isCallable = true := by
  cases g with
  | leaf l =>
    cases l with
    | value v => exact (Value.isCallable_subst x s v).trans hg
    | _ => rfl
  | ref y =>
    by_cases h : y = x
    · simpa only [Grammar.subst, if_pos h] using hs
    · simp only [Grammar.subst, if_neg h, Grammar.isCallable]
  | _ => rfl

/-- Parsers that may be put in the place of a name. -/
structure Grammar.Replaces (s s' : Grammar) : Prop where
  renamed : Grammar.Renamed s s'
  left : s.isCallable = true
  right : s'.isCallable = true

mutual

theorem Value.Renamed.subst (hs : Grammar.Replaces s s') : ∀ {v v' : Value}, Value.Renamed v v' →
    Value.Renamed (v.subst x s) (v'.subst x s')
  | _, _, .closed hv => by
    rw [hv x s, hv x s']
    exact .closed hv
  | _, _, .parser hg => .parser (Grammar.Renamed.subst hs hg)
  | _, _, .made hv hcall =>
    .made (Value.Renamed.subst hs hv) ((Value.isCallable_subst x s' _).trans hcall)
  | _, _, .unmade hv hcall =>
    .unmade (Value.Renamed.subst hs hv) ((Value.isCallable_subst x s _).trans hcall)
  | _, _, .inserted hn hv => by
    simp only [Value.subst, Grammar.subst, hn.closed x]
    exact .inserted hn (Value.Renamed.subst hs hv)
  | _, _, .removed hn hv => by
    simp only [Value.subst, Grammar.subst, hn.closed x]
    exact .removed hn (Value.Renamed.subst hs hv)

theorem Callback.Renamed.subst (hs : Grammar.Replaces s s') : ∀ {f f' : Callback},
    Callback.Renamed f f' → Callback.Renamed (f.subst x s) (f'.subst x s')
  | _, _, .closed hf => by
    rw [hf x s, hf x s']
    exact .closed hf
  | _, _, .const hv => .const (Value.Renamed.subst hs hv)
  | _, _, .compose hfunctions hf => by
    simp only [Callback.subst, Callback.substAll_append, hfunctions.substAll x]
    exact .compose hfunctions (Callback.Renamed.subst hs hf)
  | _, _, .named hf => .named (Callback.Renamed.subst hs hf)
  | _, _, .parser hg => .parser (Grammar.Renamed.subst hs hg)
  | _, _, .select hchoice => .select (Choice.Renamed.subst hs hchoice)
  | _, _, .exactlyOf hg herror => by
    simp only [Callback.subst, herror x]
    exact .exactlyOf (Grammar.Renamed.subst hs hg) herror
  | _, _, .atLeastOf hg herror => by
    simp only [Callback.subst, herror x]
    exact .atLeastOf (Grammar.Renamed.subst hs hg) herror

theorem Choice.Renamed.subst (hs : Grammar.Replaces s s') : ∀ {c c' : Choice}, Choice.Renamed c c' →
    Choice.Renamed (c.subst x s) (c'.subst x s')
  | _, _, .otherwise hg => .otherwise (Grammar.Renamed.subst hs hg)
  | _, _, .when hkey hg hnext => by
    simp only [Choice.subst, hkey x]
    exact .when hkey (Grammar.Renamed.subst hs hg) (Choice.Renamed.subst hs hnext)

theorem Leaf.Renamed.subst (hs : Grammar.Replaces s s') : ∀ {l l' : Leaf}, Leaf.Renamed l l' →
    Leaf.Renamed (l.subst x s) (l'.subst x s')
  | _, _, .closed hl => by
    rw [hl x s, hl x s']
    exact .closed hl
  | _, _, .value hv => .value (Value.Renamed.subst hs hv)
  | _, _, .element hitem herror => by
    simp only [Leaf.subst, herror x]
    exact .element (Value.Renamed.subst hs hitem) herror

theorem Wrapper.Renamed.subst (hs : Grammar.Replaces s s') : ∀ {w w' : Wrapper},
    Wrapper.Renamed w w' → Wrapper.Renamed (w.subst x s) (w'.subst x s')
  | _, _, .closed hw => by
    rw [hw x s, hw x s']
    exact .closed hw
  | _, _, .recoverWith hf => .recoverWith (Callback.Renamed.subst hs hf)
  | _, _, .andThen hf => .andThen (Callback.Renamed.subst hs hf)
  | _, _, .bind hf hh => .bind (Callback.Renamed.subst hs hf) (Callback.Renamed.subst hs hh)

/-- Grammars that differ only in names, in the place of a name. -/
theorem Grammar.Renamed.subst (hs : Grammar.Replaces s s') : ∀ {g g' : Grammar},
    Grammar.Renamed g g' → Grammar.Renamed (Grammar.subst x s g) (Grammar.subst x s' g')
  | _, _, .inserted hn hg hcall => by
    simp only [Grammar.subst, hn.closed x]
    exact .inserted hn (Grammar.Renamed.subst hs hg) (Grammar.isCallable_subst hs.right hcall)
  | _, _, .removed hn hg hcall => by
    simp only [Grammar.subst, hn.closed x]
    exact .removed hn (Grammar.Renamed.subst hs hg) (Grammar.isCallable_subst hs.left hcall)
  | _, _, .closed hg => by
    rw [hg x s, hg x s']
    exact .closed hg
  | _, _, .leaf hl => .leaf (Leaf.Renamed.subst hs hl)
  | _, _, .wrap hw hg => .wrap (Wrapper.Renamed.subst hs hw) (Grammar.Renamed.subst hs hg)
  | _, _, .join hj hg hh => by
    simp only [Grammar.subst, hj x]
    exact .join hj (Grammar.Renamed.subst hs hg) (Grammar.Renamed.subst hs hh)
  | _, _, .surroundedBy hg hleft hright =>
    .surroundedBy (Grammar.Renamed.subst hs hg) (Grammar.Renamed.subst hs hleft)
      (Grammar.Renamed.subst hs hright)
  | _, _, .ref y => by
    by_cases h : y = x
    · simp only [Grammar.subst, if_pos h]
      exact hs.renamed
    · simp only [Grammar.subst, if_neg h]
      exact .ref y
  | _, _, .recursive hbody =>
    .recursive (Grammar.related_body hbody (Grammar.Renamed.subst hs hbody))
  | _, _, .handle hbody =>
    .handle (Grammar.related_body hbody (Grammar.Renamed.subst hs hbody))

end

/-- Recursive parsers with such bodies unfold to such grammars. -/
theorem Grammar.renamed_unfold {body body' : Grammar} (h : Grammar.Renamed body body') :
    Grammar.Renamed (Grammar.unfold x body) (Grammar.unfold x body') :=
  Grammar.Renamed.subst ⟨.handle h, rfl, rfl⟩ h

end Substitution

end ParserCombinators
