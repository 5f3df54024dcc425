import ParserCombinators.Grammar.Substitution

/-!
Grammars that are the same but for their handles: where one has a handle, the
other may have the recursive parser. That is so only where a parser stands, be
it a part of another parser, the test of an element, or what a function returns
for a parse to go on with. Values, errors and other functions hold no handles
and are the same in both.
-/

namespace ParserCombinators

section Closed

/-- No name is free in the value: a grammar put in the place of a name changes
nothing. -/
def Value.Closed (v : Value) : Prop := ∀ x s, v.subst x s = v

def Callback.Closed (f : Callback) : Prop := ∀ x s, f.subst x s = f

def Leaf.Closed (l : Leaf) : Prop := ∀ x s, l.subst x s = l

def Wrapper.Closed (w : Wrapper) : Prop := ∀ x s, w.subst x s = w

def Joint.Closed (j : Joint) : Prop := ∀ x s, j.subst x s = j

def Grammar.Closed (g : Grammar) : Prop := ∀ x s, Grammar.subst x s g = g

end Closed

section Alike

mutual

/-- Values in the place of a parser that are the same but for their handles. -/
inductive Value.Alike : Value → Value → Prop
  | closed {v : Value} (hv : v.Closed) : Value.Alike v v
  | parser {identity : Identity} {g g' : Grammar} (hg : Grammar.Alike g g') :
      Value.Alike (.parser identity g) (.parser identity g')

inductive Callback.Alike : Callback → Callback → Prop
  | closed {f : Callback} (hf : f.Closed) : Callback.Alike f f
  | const {v v' : Value} (hv : Value.Alike v v') : Callback.Alike (.const v) (.const v')
  | compose {functions : List Callback} {f f' : Callback}
      (hfunctions : (Callback.compose functions).Closed) (hf : Callback.Alike f f') :
      Callback.Alike (.compose (functions ++ [f])) (.compose (functions ++ [f']))
  | named {name : Text} {f f' : Callback} (hf : Callback.Alike f f') :
      Callback.Alike (.named name f) (.named name f')
  | parser {identity : Nat} {g g' : Grammar} (hg : Grammar.Alike g g') :
      Callback.Alike (.parser identity g) (.parser identity g')
  | select {choice choice' : Choice} (hchoice : Choice.Alike choice choice') :
      Callback.Alike (.select choice) (.select choice')
  | exactlyOf {g g' : Grammar} {error : Value} (hg : Grammar.Alike g g') (herror : error.Closed) :
      Callback.Alike (.exactlyOf g error) (.exactlyOf g' error)
  | atLeastOf {g g' : Grammar} {error : Value} (hg : Grammar.Alike g g') (herror : error.Closed) :
      Callback.Alike (.atLeastOf g error) (.atLeastOf g' error)

inductive Choice.Alike : Choice → Choice → Prop
  | otherwise {identity : Nat} {g g' : Grammar} (hg : Grammar.Alike g g') :
      Choice.Alike (.otherwise identity g) (.otherwise identity g')
  | when {key : Value} {identity : Nat} {g g' : Grammar} {next next' : Choice}
      (hkey : key.Closed) (hg : Grammar.Alike g g') (hnext : Choice.Alike next next') :
      Choice.Alike (.when key identity g next) (.when key identity g' next')

inductive Leaf.Alike : Leaf → Leaf → Prop
  | closed {l : Leaf} (hl : l.Closed) : Leaf.Alike l l
  | value {v v' : Value} (hv : Value.Alike v v') : Leaf.Alike (.value v) (.value v')
  | element {item item' error : Value} (hitem : Value.Alike item item') (herror : error.Closed) :
      Leaf.Alike (.element item error) (.element item' error)

inductive Wrapper.Alike : Wrapper → Wrapper → Prop
  | closed {w : Wrapper} (hw : w.Closed) : Wrapper.Alike w w
  | recoverWith {f f' : Callback} (hf : Callback.Alike f f') :
      Wrapper.Alike (.recoverWith f) (.recoverWith f')
  | andThen {f f' : Callback} (hf : Callback.Alike f f') :
      Wrapper.Alike (.andThen f) (.andThen f')
  | bind {f f' g g' : Callback} (hf : Callback.Alike f f') (hg : Callback.Alike g g') :
      Wrapper.Alike (.bind f g) (.bind f' g')

inductive Grammar.Alike : Grammar → Grammar → Prop
  | closed {g : Grammar} (hg : g.Closed) : Grammar.Alike g g
  | leaf {l l' : Leaf} (hl : Leaf.Alike l l') : Grammar.Alike (.leaf l) (.leaf l')
  | wrap {w w' : Wrapper} {g g' : Grammar} (hw : Wrapper.Alike w w') (hg : Grammar.Alike g g') :
      Grammar.Alike (.wrap w g) (.wrap w' g')
  | join {j : Joint} {g g' h h' : Grammar} (hj : j.Closed) (hg : Grammar.Alike g g')
      (hh : Grammar.Alike h h') : Grammar.Alike (.join j g h) (.join j g' h')
  | surroundedBy {g g' left left' right right' : Grammar} (hg : Grammar.Alike g g')
      (hleft : Grammar.Alike left left') (hright : Grammar.Alike right right') :
      Grammar.Alike (.surroundedBy g left right) (.surroundedBy g' left' right')
  | ref (x : Text) : Grammar.Alike (.ref x) (.ref x)
  | recursive {x : Text} {body body' : Grammar} (hbody : Grammar.Alike body body') :
      Grammar.Alike (.recursive x body) (.recursive x body')
  | recursiveEager {x : Text} {input input' : Value} {body body' : Grammar} :
      Grammar.Alike (.recursiveEager x input body) (.recursiveEager x input' body')
  | handle {x : Text} {body body' : Grammar} (hbody : Grammar.Alike body body') :
      Grammar.Alike (.handle x body) (.handle x body')
  | opened {x : Text} {body body' : Grammar} (hbody : Grammar.Alike body body') :
      Grammar.Alike (.handle x body) (.recursive x body')

end

/-- The handles of a grammar are only called. A parser may be compared with itself
for that: whatever is not one of the places for a parser holds no handle. -/
def Grammar.CallsHandles (g : Grammar) : Prop := Grammar.Alike g g

end Alike

section Substitution

theorem Callback.substAll_append (x : Text) (s : Grammar) (functions : List Callback)
    (f : Callback) : Callback.substAll x s (functions ++ [f]) =
      Callback.substAll x s functions ++ [f.subst x s] := by
  induction functions with
  | nil => rfl
  | cons g functions ih => rw [List.cons_append, Callback.substAll, ih]; rfl

theorem Callback.Closed.substAll {functions : List Callback} (h : (compose functions).Closed)
    (x : Text) (s : Grammar) : Callback.substAll x s functions = functions :=
  Callback.compose.inj (h x s)

variable {x : Text} {s s' : Grammar}

/-- The body of a binder, in which its own name is hidden. -/
theorem Grammar.related_body {R : Grammar → Grammar → Prop} {y : Text} {body body' : Grammar}
    (hbody : R body body') (hsubst : R (Grammar.subst x s body) (Grammar.subst x s' body')) :
    R (if y = x then body else Grammar.subst x s body)
      (if y = x then body' else Grammar.subst x s' body') := by
  by_cases h : y = x
  · rw [if_pos h, if_pos h]
    exact hbody
  · rw [if_neg h, if_neg h]
    exact hsubst

mutual

theorem Value.Alike.subst (hs : Grammar.Alike s s') : ∀ {v v' : Value}, Value.Alike v v' →
    Value.Alike (v.subst x s) (v'.subst x s')
  | _, _, .closed hv => by
    rw [hv x s, hv x s']
    exact .closed hv
  | _, _, .parser hg => .parser (Grammar.Alike.subst hs hg)

theorem Callback.Alike.subst (hs : Grammar.Alike s s') : ∀ {f f' : Callback},
    Callback.Alike f f' → Callback.Alike (f.subst x s) (f'.subst x s')
  | _, _, .closed hf => by
    rw [hf x s, hf x s']
    exact .closed hf
  | _, _, .const hv => .const (Value.Alike.subst hs hv)
  | _, _, .compose hfunctions hf => by
    simp only [Callback.subst, Callback.substAll_append, hfunctions.substAll x]
    exact .compose hfunctions (Callback.Alike.subst hs hf)
  | _, _, .named hf => .named (Callback.Alike.subst hs hf)
  | _, _, .parser hg => .parser (Grammar.Alike.subst hs hg)
  | _, _, .select hchoice => .select (Choice.Alike.subst hs hchoice)
  | _, _, .exactlyOf hg herror => by
    simp only [Callback.subst, herror x]
    exact .exactlyOf (Grammar.Alike.subst hs hg) herror
  | _, _, .atLeastOf hg herror => by
    simp only [Callback.subst, herror x]
    exact .atLeastOf (Grammar.Alike.subst hs hg) herror

theorem Choice.Alike.subst (hs : Grammar.Alike s s') : ∀ {c c' : Choice}, Choice.Alike c c' →
    Choice.Alike (c.subst x s) (c'.subst x s')
  | _, _, .otherwise hg => .otherwise (Grammar.Alike.subst hs hg)
  | _, _, .when hkey hg hnext => by
    simp only [Choice.subst, hkey x]
    exact .when hkey (Grammar.Alike.subst hs hg) (Choice.Alike.subst hs hnext)

theorem Leaf.Alike.subst (hs : Grammar.Alike s s') : ∀ {l l' : Leaf}, Leaf.Alike l l' →
    Leaf.Alike (l.subst x s) (l'.subst x s')
  | _, _, .closed hl => by
    rw [hl x s, hl x s']
    exact .closed hl
  | _, _, .value hv => .value (Value.Alike.subst hs hv)
  | _, _, .element hitem herror => by
    simp only [Leaf.subst, herror x]
    exact .element (Value.Alike.subst hs hitem) herror

theorem Wrapper.Alike.subst (hs : Grammar.Alike s s') : ∀ {w w' : Wrapper}, Wrapper.Alike w w' →
    Wrapper.Alike (w.subst x s) (w'.subst x s')
  | _, _, .closed hw => by
    rw [hw x s, hw x s']
    exact .closed hw
  | _, _, .recoverWith hf => .recoverWith (Callback.Alike.subst hs hf)
  | _, _, .andThen hf => .andThen (Callback.Alike.subst hs hf)
  | _, _, .bind hf hg => .bind (Callback.Alike.subst hs hf) (Callback.Alike.subst hs hg)

/-- Alike grammars in the place of a name keep grammars alike. -/
theorem Grammar.Alike.subst (hs : Grammar.Alike s s') : ∀ {g g' : Grammar}, Grammar.Alike g g' →
    Grammar.Alike (Grammar.subst x s g) (Grammar.subst x s' g')
  | _, _, .closed hg => by
    rw [hg x s, hg x s']
    exact .closed hg
  | _, _, .leaf hl => .leaf (Leaf.Alike.subst hs hl)
  | _, _, .wrap hw hg => .wrap (Wrapper.Alike.subst hs hw) (Grammar.Alike.subst hs hg)
  | _, _, .join hj hg hh => by
    simp only [Grammar.subst, hj x]
    exact .join hj (Grammar.Alike.subst hs hg) (Grammar.Alike.subst hs hh)
  | _, _, .surroundedBy hg hleft hright =>
    .surroundedBy (Grammar.Alike.subst hs hg) (Grammar.Alike.subst hs hleft)
      (Grammar.Alike.subst hs hright)
  | _, _, .ref y => by
    by_cases h : y = x
    · simp only [Grammar.subst, if_pos h]
      exact hs
    · simp only [Grammar.subst, if_neg h]
      exact .ref y
  | _, _, .recursive hbody =>
    .recursive (Grammar.related_body hbody (Grammar.Alike.subst hs hbody))
  | _, _, .recursiveEager => .recursiveEager
  | _, _, .handle hbody =>
    .handle (Grammar.related_body hbody (Grammar.Alike.subst hs hbody))
  | _, _, .opened hbody =>
    .opened (Grammar.related_body hbody (Grammar.Alike.subst hs hbody))

end

end Substitution

end ParserCombinators
