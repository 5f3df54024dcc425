import ParserCombinators.Grammar.Construction
import ParserCombinators.Proofs.Logic

/-!
Which names a grammar uses where they are not bound. A recursive parser binds its
name in its body, and putting the parser in the place of the name leaves no mention
of it. A call of a handle before its definition is complete is a use of the name
outside of what binds it, but a grammar with such a call cannot be constructed.
-/

namespace ParserCombinators

open Run

section Mentions

mutual

/-- The name stands in the value for a parser that is not in the value. No name stands
for a handle that is called too early; such calls count if `early`, and always in the
definition of a handle. -/
def Value.Mentions (early : Prop) (y : Option Text) : Value → Prop
  | .list items => Value.AnyMentions early y items
  | .tuple items => Value.AnyMentions early y items
  | .branch _ v => v.Mentions early y
  | .success rest v => rest.Mentions early y ∨ v.Mentions early y
  | .failure rest e => rest.Mentions early y ∨ e.Mentions early y
  | .function _ f => f.Mentions early y
  | .parser _ g => g.Mentions early y
  | _ => False

def Value.AnyMentions (early : Prop) (y : Option Text) : List Value → Prop
  | [] => False
  | v :: vs => v.Mentions early y ∨ Value.AnyMentions early y vs

def Callback.Mentions (early : Prop) (y : Option Text) : Callback → Prop
  | .const v => v.Mentions early y
  | .add v => v.Mentions early y
  | .modulo v => v.Mentions early y
  | .equal v => v.Mentions early y
  | .differ v => v.Mentions early y
  | .within v => v.Mentions early y
  | .compose functions => Callback.AnyMentions early y functions
  | .named _ f => f.Mentions early y
  | .parser _ g => g.Mentions early y
  | .select choice => choice.Mentions early y
  | .exactlyOf g error => g.Mentions early y ∨ error.Mentions early y
  | .atLeastOf g error => g.Mentions early y ∨ error.Mentions early y
  | .literalOf error => error.Mentions early y
  | _ => False

def Callback.AnyMentions (early : Prop) (y : Option Text) : List Callback → Prop
  | [] => False
  | f :: fs => f.Mentions early y ∨ Callback.AnyMentions early y fs

def Choice.Mentions (early : Prop) (y : Option Text) : Choice → Prop
  | .otherwise _ g => g.Mentions early y
  | .when key _ g next => key.Mentions early y ∨ g.Mentions early y ∨ next.Mentions early y

def Leaf.Mentions (early : Prop) (y : Option Text) : Leaf → Prop
  | .literal pattern error => pattern.Mentions early y ∨ error.Mentions early y
  | .element item error => item.Mentions early y ∨ error.Mentions early y
  | .anything error => error.Mentions early y
  | .endOfInput error => error.Mentions early y
  | .always v => v.Mentions early y
  | .never error => error.Mentions early y
  | .lineComment start => start.Mentions early y
  | .blockComment start stop => start.Mentions early y ∨ stop.Mentions early y
  | .quotedString quotes _ _ => quotes.Mentions early y
  | .value v => v.Mentions early y
  | .take _ error => error.Mentions early y
  | .reply outcome => outcome.Mentions early y
  | _ => False

def Wrapper.Mentions (early : Prop) (y : Option Text) : Wrapper → Prop
  | .atLeast count error => count.Mentions early y ∨ error.Mentions early y
  | .atMost count => count.Mentions early y
  | .exactly count error => count.Mentions early y ∨ error.Mentions early y
  | .not error => error.Mentions early y
  | .recoverWith f => f.Mentions early y
  | .map f => f.Mentions early y
  | .mapError f => f.Mentions early y
  | .validate f error => f.Mentions early y ∨ error.Mentions early y
  | .andThen f => f.Mentions early y
  | .bind f g => f.Mentions early y ∨ g.Mentions early y
  | .skipLineComment start => start.Mentions early y
  | .skipBlockComment start stop => start.Mentions early y ∨ stop.Mentions early y
  | _ => False

def Joint.Mentions (early : Prop) (y : Option Text) : Joint → Prop
  | .sepBy1 error => error.Mentions early y
  | _ => False

def Grammar.Mentions (early : Prop) (y : Option Text) : Grammar → Prop
  | .leaf l => l.Mentions early y
  | .wrap w g => w.Mentions early y ∨ g.Mentions early y
  | .join j g h => j.Mentions early y ∨ g.Mentions early y ∨ h.Mentions early y
  | .surroundedBy g left right =>
    g.Mentions early y ∨ left.Mentions early y ∨ right.Mentions early y
  | .ref x => y = some x
  | .recursive x body => y ≠ some x ∧ body.Mentions early y
  | .recursiveEager x input body =>
    (early ∧ y = none) ∨ input.Mentions early y ∨ (y ≠ some x ∧ body.Mentions early y)
  | .handle x body => y ≠ some x ∧ body.Mentions True y

end

end Mentions

section Substitution

variable {x : Text} {y : Option Text} {s : Grammar}

theorem mentions_either {p q p' q' r : Prop} (h : p' → p ∧ r) (h' : q' → q ∧ r) :
    p' ∨ q' → (p ∨ q) ∧ r := by
  rintro (hp | hq)
  · exact ⟨.inl (h hp).1, (h hp).2⟩
  · exact ⟨.inr (h' hq).1, (h' hq).2⟩

/-- A binder of the name hides it in its body. -/
theorem mentions_body {z : Text} {body body' : Grammar}
    (h : body'.Mentions True y → body.Mentions True y ∧ y ≠ some x) :
    (y ≠ some z ∧ (if z = x then body else body').Mentions True y) →
      (y ≠ some z ∧ body.Mentions True y) ∧ y ≠ some x := by
  rintro ⟨hz, hbody⟩
  by_cases hbound : z = x
  · rw [if_pos hbound] at hbody
    exact ⟨⟨hz, hbody⟩, hbound ▸ hz⟩
  · rw [if_neg hbound] at hbody
    exact ⟨⟨hz, (h hbody).1⟩, (h hbody).2⟩

mutual

/-- A grammar without a mention of a name, put in the place of that or another name,
leaves only what has been there. -/
theorem Value.mentions_subst (hs : ¬ s.Mentions True y) : ∀ v : Value,
    (v.subst x s).Mentions True y → v.Mentions True y ∧ y ≠ some x
  | .list items => Value.anyMentions_subst hs items
  | .tuple items => Value.anyMentions_subst hs items
  | .branch _ v => v.mentions_subst hs
  | .success rest v => mentions_either (rest.mentions_subst hs) (v.mentions_subst hs)
  | .failure rest e => mentions_either (rest.mentions_subst hs) (e.mentions_subst hs)
  | .function _ f => f.mentions_subst hs
  | .parser _ g => g.mentions_subst hs
  | .none | .bool _ | .int _ | .text _ | .bytes _ => False.elim

theorem Value.anyMentions_subst (hs : ¬ s.Mentions True y) : ∀ vs : List Value,
    Value.AnyMentions True y (Value.substAll x s vs) → Value.AnyMentions True y vs ∧ y ≠ some x
  | [] => False.elim
  | v :: vs => mentions_either (v.mentions_subst hs) (Value.anyMentions_subst hs vs)

theorem Callback.mentions_subst (hs : ¬ s.Mentions True y) : ∀ f : Callback,
    (f.subst x s).Mentions True y → f.Mentions True y ∧ y ≠ some x
  | .const v | .add v | .modulo v | .equal v | .differ v | .within v => v.mentions_subst hs
  | .compose functions => Callback.anyMentions_subst hs functions
  | .named _ f => f.mentions_subst hs
  | .parser _ g => g.mentions_subst hs
  | .select choice => choice.mentions_subst hs
  | .exactlyOf g error => mentions_either (g.mentions_subst hs) (error.mentions_subst hs)
  | .atLeastOf g error => mentions_either (g.mentions_subst hs) (error.mentions_subst hs)
  | .literalOf error => error.mentions_subst hs
  | .identity | .duplicate | .display | .integer | .join | .length | .negate | .left | .right
  | .foldBranch | .foldAll | .sideAndValue | .isDigits | .isLetters | .isInteger | .get _
  | .raise _ | .plus | .minus | .times | .pack | .pureOf | .failOf => False.elim

theorem Callback.anyMentions_subst (hs : ¬ s.Mentions True y) : ∀ fs : List Callback,
    Callback.AnyMentions True y (Callback.substAll x s fs) →
      Callback.AnyMentions True y fs ∧ y ≠ some x
  | [] => False.elim
  | f :: fs => mentions_either (f.mentions_subst hs) (Callback.anyMentions_subst hs fs)

theorem Choice.mentions_subst (hs : ¬ s.Mentions True y) : ∀ c : Choice,
    (c.subst x s).Mentions True y → c.Mentions True y ∧ y ≠ some x
  | .otherwise _ g => g.mentions_subst hs
  | .when key _ g next => mentions_either (key.mentions_subst hs)
      (mentions_either (g.mentions_subst hs) (next.mentions_subst hs))

theorem Leaf.mentions_subst (hs : ¬ s.Mentions True y) : ∀ l : Leaf,
    (l.subst x s).Mentions True y → l.Mentions True y ∧ y ≠ some x
  | .literal pattern error => mentions_either (pattern.mentions_subst hs) (error.mentions_subst hs)
  | .element item error => mentions_either (item.mentions_subst hs) (error.mentions_subst hs)
  | .anything v | .endOfInput v | .always v | .never v | .lineComment v | .quotedString v _ _
  | .value v | .take _ v | .reply v => v.mentions_subst hs
  | .blockComment start stop => mentions_either (start.mentions_subst hs) (stop.mentions_subst hs)
  | .space | .tab | .newline | .carriageReturn | .whitespace | .whitespaces | .integer => False.elim

theorem Wrapper.mentions_subst (hs : ¬ s.Mentions True y) : ∀ w : Wrapper,
    (w.subst x s).Mentions True y → w.Mentions True y ∧ y ≠ some x
  | .atLeast count error => mentions_either (count.mentions_subst hs) (error.mentions_subst hs)
  | .atMost v | .not v | .skipLineComment v => v.mentions_subst hs
  | .exactly count error => mentions_either (count.mentions_subst hs) (error.mentions_subst hs)
  | .recoverWith f | .map f | .mapError f | .andThen f => f.mentions_subst hs
  | .validate f error => mentions_either (f.mentions_subst hs) (error.mentions_subst hs)
  | .bind f g => mentions_either (f.mentions_subst hs) (g.mentions_subst hs)
  | .skipBlockComment start stop =>
    mentions_either (start.mentions_subst hs) (stop.mentions_subst hs)
  | .maybe | .many | .first | .second | .lookahead | .backtrack | .fold | .foldAll | .named _
  | .toParser | .parser _ | .lexeme | .skipSpaces | .charToString | .toUppercase | .toLowercase
  | .function _ | .counted _ => False.elim

theorem Joint.mentions_subst (hs : ¬ s.Mentions True y) : ∀ j : Joint,
    (j.subst x s).Mentions True y → j.Mentions True y ∧ y ≠ some x
  | .sepBy1 error => error.mentions_subst hs
  | .seq | .alt | .skip | .precededBy | .sepBy | .chainLeft | .chainRight | .orBoth | .apply =>
    False.elim

theorem Grammar.mentions_subst (hs : ¬ s.Mentions True y) : ∀ g : Grammar,
    (Grammar.subst x s g).Mentions True y → g.Mentions True y ∧ y ≠ some x
  | .ref z => by
    intro h
    by_cases hz : z = x
    · rw [Grammar.subst, if_pos hz] at h
      exact absurd h hs
    · rw [Grammar.subst, if_neg hz] at h
      have hy : y = some z := h
      exact ⟨h, fun heq => hz (Option.some.inj (hy.symm.trans heq))⟩
  | .leaf l => l.mentions_subst hs
  | .wrap w g => mentions_either (w.mentions_subst hs) (g.mentions_subst hs)
  | .join j g h => mentions_either (j.mentions_subst hs)
      (mentions_either (g.mentions_subst hs) (h.mentions_subst hs))
  | .surroundedBy g left right => mentions_either (g.mentions_subst hs)
      (mentions_either (left.mentions_subst hs) (right.mentions_subst hs))
  | .recursive _ body => mentions_body (body.mentions_subst hs)
  | .recursiveEager _ input body =>
    mentions_either (fun h => ⟨h, h.2 ▸ nofun⟩)
      (mentions_either (input.mentions_subst hs) (mentions_body (body.mentions_subst hs)))
  | .handle _ body => mentions_body (body.mentions_subst hs)

end

end Substitution

section Construction

variable {y : Option Text}

theorem Run.Returns.first {r s : Run Unit} (h : (r >>= fun _ => s).Returns ()) : r.Returns () := by
  obtain ⟨_, hr, -⟩ := h.of_bind
  exact hr

theorem Run.Returns.second {r s : Run Unit} (h : (r >>= fun _ => s).Returns ()) : s.Returns () := by
  obtain ⟨_, -, hs⟩ := h.of_bind
  exact hs

mutual

/-- What has been constructed has called none of its handles too early. -/
theorem Value.mentions_of_construct : ∀ v : Value, v.construct.Returns () →
    v.Mentions True y → v.Mentions False y
  | .list items => fun h => Value.anyMentions_of_construct items h
  | .tuple items => fun h => Value.anyMentions_of_construct items h
  | .branch _ v => fun h => v.mentions_of_construct h
  | .success rest v => fun h =>
    Or.imp (rest.mentions_of_construct h.first) (v.mentions_of_construct h.second)
  | .failure rest e => fun h =>
    Or.imp (rest.mentions_of_construct h.first) (e.mentions_of_construct h.second)
  | .function _ f => fun h => f.mentions_of_construct h
  | .parser _ g => fun h => g.mentions_of_construct h
  | .none | .bool _ | .int _ | .text _ | .bytes _ => fun _ => False.elim

theorem Value.anyMentions_of_construct : ∀ vs : List Value,
    (Value.constructAll vs).Returns () → Value.AnyMentions True y vs → Value.AnyMentions False y vs
  | [] => fun _ => False.elim
  | v :: vs => fun h =>
    Or.imp (v.mentions_of_construct h.first) (Value.anyMentions_of_construct vs h.second)

theorem Callback.mentions_of_construct : ∀ f : Callback, f.construct.Returns () →
    f.Mentions True y → f.Mentions False y
  | .const v | .add v | .modulo v | .equal v | .differ v | .within v
  | .literalOf v => fun h => v.mentions_of_construct h
  | .compose functions => fun h => Callback.anyMentions_of_construct functions h
  | .named _ f => fun h => f.mentions_of_construct h
  | .parser _ g => fun h => g.mentions_of_construct h
  | .select choice => fun h => choice.mentions_of_construct h
  | .exactlyOf g error => fun h =>
    Or.imp (g.mentions_of_construct h.first) (error.mentions_of_construct h.second.second)
  | .atLeastOf g error => fun h =>
    Or.imp (g.mentions_of_construct h.first) (error.mentions_of_construct h.second.second)
  | .identity | .duplicate | .display | .integer | .join | .length | .negate
  | .left | .right | .foldBranch | .foldAll | .sideAndValue | .isDigits
  | .isLetters | .isInteger | .get _ | .raise _ | .plus | .minus | .times
  | .pack | .pureOf | .failOf => fun _ => False.elim

theorem Callback.anyMentions_of_construct : ∀ fs : List Callback,
    (Callback.constructAll fs).Returns () →
      Callback.AnyMentions True y fs → Callback.AnyMentions False y fs
  | [] => fun _ => False.elim
  | f :: fs => fun h =>
    Or.imp (f.mentions_of_construct h.first) (Callback.anyMentions_of_construct fs h.second)

theorem Choice.mentions_of_construct : ∀ c : Choice, c.construct.Returns () →
    c.Mentions True y → c.Mentions False y
  | .otherwise _ g => fun h => g.mentions_of_construct h
  | .when key _ g next => fun h => Or.imp (key.mentions_of_construct h.first)
      (Or.imp (g.mentions_of_construct h.second.first) (next.mentions_of_construct h.second.second))

theorem Leaf.mentions_of_construct : ∀ l : Leaf, l.construct.Returns () →
    l.Mentions True y → l.Mentions False y
  | .literal pattern error => fun h => Or.imp (pattern.mentions_of_construct h.first)
      (error.mentions_of_construct h.second.first)
  | .element item error => fun h =>
    Or.imp (item.mentions_of_construct h.first) (error.mentions_of_construct h.second)
  | .lineComment start => fun h => start.mentions_of_construct h.first
  | .blockComment start stop => fun h => Or.imp (start.mentions_of_construct h.first)
      (stop.mentions_of_construct h.second.first)
  | .anything v | .endOfInput v | .always v | .never v | .quotedString v _ _
  | .value v | .take _ v | .reply v => fun h => v.mentions_of_construct h
  | .space | .tab | .newline | .carriageReturn | .whitespace | .whitespaces
  | .integer => fun _ => False.elim

theorem Wrapper.mentions_of_construct : ∀ w : Wrapper, w.construct.Returns () →
    w.Mentions True y → w.Mentions False y
  | .atLeast count error => fun h =>
    Or.imp (count.mentions_of_construct h.first) (error.mentions_of_construct h.second)
  | .exactly count error => fun h =>
    Or.imp (count.mentions_of_construct h.first) (error.mentions_of_construct h.second)
  | .atMost v | .not v | .skipLineComment v => fun h => v.mentions_of_construct h
  | .recoverWith f | .map f | .mapError f | .andThen f => fun h => f.mentions_of_construct h
  | .validate f error => fun h =>
    Or.imp (f.mentions_of_construct h.first) (error.mentions_of_construct h.second)
  | .bind f g => fun h =>
    Or.imp (f.mentions_of_construct h.first) (g.mentions_of_construct h.second)
  | .skipBlockComment start stop => fun h =>
    Or.imp (start.mentions_of_construct h.first) (stop.mentions_of_construct h.second)
  | .maybe | .many | .first | .second | .lookahead | .backtrack | .fold
  | .foldAll | .named _ | .toParser | .parser _ | .lexeme | .skipSpaces
  | .charToString | .toUppercase | .toLowercase | .function _ | .counted _ => fun _ =>
    False.elim

theorem Joint.mentions_of_construct : ∀ j : Joint, j.construct.Returns () →
    j.Mentions True y → j.Mentions False y
  | .sepBy1 error => fun h => error.mentions_of_construct h
  | .seq | .alt | .skip | .precededBy | .sepBy | .chainLeft | .chainRight
  | .orBoth | .apply => fun _ => False.elim

theorem Grammar.mentions_of_construct : ∀ g : Grammar, g.construct.Returns () →
    g.Mentions True y → g.Mentions False y
  | .ref _ => fun _ => id
  | .leaf l => fun h => l.mentions_of_construct h
  | .wrap w g => fun h =>
    Or.imp (w.mentions_of_construct h.second.first) (g.mentions_of_construct h.first)
  | .join j g k => fun h => Or.imp (j.mentions_of_construct h.second.second.first)
      (Or.imp (g.mentions_of_construct h.first) (k.mentions_of_construct h.second.first))
  | .surroundedBy g left right => fun h => Or.imp (g.mentions_of_construct h.first)
      (Or.imp (left.mentions_of_construct h.second.first)
        (right.mentions_of_construct h.second.second.first))
  | .recursive _ body => fun h => And.imp id (body.mentions_of_construct h.first)
  | .recursiveEager _ _ _ => fun h => absurd (Run.Returns.second h) not_returns_fail
  | .handle _ _ => fun _ => id

end

end Construction

end ParserCombinators
