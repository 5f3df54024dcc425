import ParserCombinators.Proofs.Handles.Unfolding
import ParserCombinators.Proofs.Rule.Text

/-!
The language of nested lists of digits. A list is written in brackets with a comma
between every two of its items, which are digits or lists again. The recursive
grammar for them reads a list off every text that begins with one, and a text
that does not is refused as a whole. The argument is about one level of the
recursion: what it does on a text is known from what its items do on shorter ones.
-/

namespace ParserCombinators

open Run

theorem CodePoint.exists_ofDigit {c : CodePoint} (h : c.isDecimal = true) :
    ∃ d : Fin 10, c = ofDigit d := by
  have hval : 48 ≤ c.val ∧ c.val ≤ 57 := by
    simpa [isDecimal] using h
  have hlt : c.val - 48 < 10 := by omega
  refine ⟨⟨c.val - 48, hlt⟩, ?_⟩
  ext
  show c.val = (ofNat (if c.val - 48 < 10 then 48 + (c.val - 48) else _)).val
  rw [if_pos hlt, val_ofNat (by omega)]
  omega

/-- A digit, or a list of such. -/
inductive NestedList
  | digit (d : Fin 10)
  | list (items : List NestedList)

namespace NestedList

mutual

/-- What a nested list is read as. -/
def value : NestedList → Value
  | .digit d => .int d
  | .list items => .list (values items)

def values : List NestedList → List Value
  | [] => []
  | t :: ts => t.value :: values ts

end

mutual

/-- How a nested list is written. -/
def render : NestedList → Text
  | .digit d => [CodePoint.ofDigit d]
  | .list items => "[" ++ Text.joinWith "," (renderAll items) ++ "]"

def renderAll : List NestedList → List Text
  | [] => []
  | t :: ts => t.render :: renderAll ts

end

/-- The items that follow the first one, each with its comma. -/
def renderTail : List NestedList → Text
  | [] => []
  | t :: ts => "," ++ (t.render ++ renderTail ts)

theorem joinWith_renderAll (t : NestedList) (ts : List NestedList) :
    Text.joinWith "," (renderAll (t :: ts)) = t.render ++ renderTail ts := by
  induction ts generalizing t with
  | nil => simp [renderAll, renderTail, Text.joinWith]
  | cons u ts ih =>
    have hu := ih u
    simp only [renderAll] at hu ⊢
    rw [Text.joinWith, hu, renderTail]
    simp

theorem render_list_append (items : List NestedList) (u : Text) :
    (list items).render ++ u =
      "[" ++ (Text.joinWith "," (renderAll items) ++ ("]" ++ u)) := by
  simp [render]

end NestedList

open NestedList

/-- A nested list is written at the beginning of the text. -/
def Text.BeginsWithList (s : Text) : Prop := ∃ (t : NestedList) (u : Text), s = t.render ++ u

namespace Text

theorem not_beginsWithList_closing (u : Text) : ¬ BeginsWithList ("]" ++ u) := by
  rintro ⟨t, v, h⟩
  cases t with
  | digit d =>
    have hall : ∀ d : Fin 10, CodePoint.ofChar ']' ≠ CodePoint.ofDigit d := by decide
    exact hall d (List.cons.inj h).1
  | list items =>
    rw [render_list_append] at h
    exact absurd (List.cons.inj h).1 (by decide)

/-- Every text is a row of items with their commas and something that goes on with
no comma, or with no item behind the comma. -/
theorem exists_renderTail (s : Text) : ∃ (items : List NestedList) (u : Text),
    s = renderTail items ++ u ∧ ∀ w, u = "," ++ w → ¬ w.BeginsWithList := by
  by_cases hitem : ∃ w, s = "," ++ w ∧ w.BeginsWithList
  · obtain ⟨w, rfl, t, v, rfl⟩ := hitem
    have hshorter : v.length < ("," ++ (t.render ++ v)).length := by
      have hcomma : ("," ++ (t.render ++ v)).length = (t.render ++ v).length + 1 := rfl
      rw [hcomma, List.length_append]
      omega
    obtain ⟨items, u, rfl, hstop⟩ := exists_renderTail v
    exact ⟨t :: items, u, by simp [renderTail], hstop⟩
  · exact ⟨[], s, rfl, fun w hw hbegins => hitem ⟨w, hw, hbegins⟩⟩
termination_by s.length

end Text

/-- A row of items cannot be made longer by what follows it. -/
structure NestedList.Longest (items : List NestedList) (u : Text) : Prop where
  first : items = [] → ¬ u.BeginsWithList
  next : items ≠ [] → ∀ w, u = "," ++ w → ¬ w.BeginsWithList

namespace NestedList

theorem longest_closing (items : List NestedList) (u : Text) : Longest items ("]" ++ u) where
  first _ := Text.not_beginsWithList_closing u
  next _ w h := absurd (List.cons.inj h).1 (by decide)

theorem exists_longest (s : Text) : ∃ (items : List NestedList) (u : Text),
    s = Text.joinWith "," (renderAll items) ++ u ∧ Longest items u := by
  by_cases hitem : s.BeginsWithList
  · obtain ⟨t, v, rfl⟩ := hitem
    obtain ⟨items, u, rfl, hstop⟩ := Text.exists_renderTail v
    refine ⟨t :: items, u, ?_, nofun, fun _ => hstop⟩
    rw [joinWith_renderAll, List.append_assoc]
  · exact ⟨[], s, rfl, fun _ => hitem, fun h => absurd rfl h⟩

end NestedList

namespace Rule

/-- The rule reads a nested list off the text if the text begins with one, and
refuses it otherwise. -/
structure Decides (p : Rule) (s : Text) : Prop where
  reads : ∀ (t : NestedList) (u : Text), s = t.render ++ u →
    p (.text s) = pure (.success (.text u) t.value)
  refuses : ¬ s.BeginsWithList → ∃ e, p (.text s) = pure (.failure (.text s) e)

section Items

variable {p : Rule} {bound : Nat} {comma : Value}

/-- Where no item follows, the rounds are over. -/
theorem separatedFrom_text_stop {u : Text}
    (hp : ∀ s : Text, s.length ≤ bound → p.Decides s) (hbound : u.length ≤ bound)
    (hstop : ∀ w, u = "," ++ w → ¬ w.BeginsWithList) (outputs : List Value) :
    separatedFrom p (literal (.text ",") comma) outputs (.text u) = pure (.text u, outputs) := by
  rw [separatedFrom]
  by_cases hcomma : "," <+: u
  · obtain ⟨w, rfl⟩ := hcomma
    have hlength : ("," ++ w).length = w.length + 1 := rfl
    obtain ⟨e, he⟩ := (hp w (by omega)).refuses (hstop w rfl)
    rw [literal_text_append]
    simp [he]
  · rw [literal_text_refuses hcomma]
    simp

theorem separatedFrom_text {u : Text} (hp : ∀ s : Text, s.length ≤ bound → p.Decides s)
    (hstop : ∀ w, u = "," ++ w → ¬ w.BeginsWithList) (items : List NestedList) :
    ∀ outputs, (renderTail items ++ u).length ≤ bound →
      separatedFrom p (literal (.text ",") comma) outputs (.text (renderTail items ++ u)) =
        pure (.text u, outputs ++ values items) := by
  induction items with
  | nil =>
    intro outputs hbound
    rw [values, List.append_nil]
    exact separatedFrom_text_stop hp hbound hstop outputs
  | cons t items ih =>
    intro outputs hbound
    have hsplit : renderTail (t :: items) ++ u = "," ++ (t.render ++ (renderTail items ++ u)) := by
      simp [renderTail]
    have hlength : (renderTail (t :: items) ++ u).length =
        (t.render ++ (renderTail items ++ u)).length + 1 := congrArg List.length hsplit
    have hshorter : (renderTail items ++ u).length ≤ (t.render ++ (renderTail items ++ u)).length :=
      (List.suffix_append t.render _).length_le
    have hread := (hp _ (by omega)).reads t (renderTail items ++ u) rfl
    have hlt : (Value.text (renderTail items ++ u)).size <
        (Value.text (renderTail (t :: items) ++ u)).size := by
      simp only [Value.size]
      omega
    rw [hsplit] at hlt ⊢
    rw [separatedFrom, literal_text_append]
    simp only [pure_bind, Value.isTrue_success, if_true, Value.rest_success, hread,
      Value.comparable, Value.isSequence, Bool.and_self, hlt, Value.output_success,
      ih (outputs ++ [t.value]) (by omega), values, List.append_assoc, List.singleton_append]

/-- Items are read up to where no further one follows. -/
theorem sepBy_text {items : List NestedList} {u : Text} (comma : Value)
    (hp : ∀ s : Text, s.length ≤ (Text.joinWith "," (renderAll items) ++ u).length → p.Decides s)
    (hlongest : Longest items u) :
    p.sepBy (literal (.text ",") comma) (.text (Text.joinWith "," (renderAll items) ++ u)) =
      pure (.success (.text u) (.list (values items))) := by
  cases items with
  | nil =>
    obtain ⟨e, he⟩ := (hp u (Nat.le_refl _)).refuses (hlongest.first rfl)
    show p.sepBy _ (.text u) = _
    rw [sepBy, he]
    simp [accept, values]
  | cons t items =>
    rw [joinWith_renderAll, List.append_assoc] at hp ⊢
    have hshorter : (renderTail items ++ u).length ≤ (t.render ++ (renderTail items ++ u)).length :=
      (List.suffix_append t.render _).length_le
    have hread := (hp _ (Nat.le_refl _)).reads t (renderTail items ++ u) rfl
    have hnext := hlongest.next (List.cons_ne_nil t items)
    rw [sepBy, hread]
    simp only [pure_bind, Value.isTrue_success, if_true, Value.rest_success, Value.output_success,
      separatedFrom_text hp hnext items [t.value] hshorter, accept, values, List.singleton_append]

end Items

section Level

variable {p : Rule} {comma opening closing digit : Value}

/-- A digit, as the number that it stands for. -/
def decimalDigit (error : Value) : Rule :=
  (element (fun c => pure (c.isAll CodePoint.isDecimal)) error).map Value.toInteger

theorem decimalDigit_text_cons (d : Fin 10) (error : Value) (t : Text) :
    decimalDigit error (.text (CodePoint.ofDigit d :: t)) =
      pure (.success (.text t) (.int d)) := by
  have hdecimal : ∀ d : Fin 10, (CodePoint.ofDigit d).isDecimal = true := by decide
  have hinteger : ∀ d : Fin 10, Text.integer? [CodePoint.ofDigit d] = some (d : Int) := by decide
  have helement : element (fun c => pure (c.isAll CodePoint.isDecimal)) error
      (.text (CodePoint.ofDigit d :: t)) =
        pure (.success (.text t) (.text [CodePoint.ofDigit d])) :=
    element_text_cons (by simp [Value.isAll, hdecimal d]) t
  rw [decimalDigit, map, helement]
  simp [Value.toInteger, Value.readInteger, hinteger d, Run.ofOption, accept]

theorem decimalDigit_text_refuses {t : Text} (h : ∀ c, t.head? = some c → c.isDecimal = false)
    (error : Value) : decimalDigit error (.text t) = pure (.failure (.text t) error) := by
  cases t with
  | nil => rfl
  | cons c t => exact map_of_failure (element_text_refuses (by simp [Value.isAll, h c rfl]) t)

/-- One level of the recursion: a digit, or items that `p` reads in brackets. -/
def nestedLevel (comma opening closing digit : Value) (p : Rule) : Rule :=
  (((p.sepBy (literal (.text ",") comma)).surroundedBy (literal (.text "[") opening)
    (literal (.text "]") closing)).alt (decimalDigit digit)).map Value.foldBranch

theorem surroundedBy_brackets {t u : Text} {v : Value}
    (h : p (.text t) = pure (.success (.text ("]" ++ u)) v)) :
    p.surroundedBy (literal (.text "[") opening) (literal (.text "]") closing)
      (.text ("[" ++ t)) = pure (.success (.text u) v) :=
  surroundedBy_of_success (literal_text_append _ t) h (literal_text_append _ u)

theorem surroundedBy_unclosed {t u : Text} {v : Value}
    (h : p (.text t) = pure (.success (.text u) v)) (hu : ¬ "]" <+: u) :
    ∃ rest e, p.surroundedBy (literal (.text "[") opening) (literal (.text "]") closing)
      (.text ("[" ++ t)) = pure (.failure rest e) :=
  ⟨_, _, surroundedBy_of_right (literal_text_append _ t) h (literal_text_refuses hu)⟩

theorem surroundedBy_unopened {t : Text} (ht : ¬ "[" <+: t) :
    ∃ rest e, p.surroundedBy (literal (.text "[") opening) (literal (.text "]") closing)
      (.text t) = pure (.failure rest e) :=
  ⟨_, _, surroundedBy_of_left (literal_text_refuses ht)⟩

theorem nestedLevel_text (t : NestedList) (u : Text)
    (hp : ∀ s : Text, s.length < (t.render ++ u).length → p.Decides s) :
    nestedLevel comma opening closing digit p (.text (t.render ++ u)) =
      pure (.success (.text u) t.value) := by
  cases t with
  | digit d =>
    have hunopened : ¬ "[" <+: (NestedList.digit d).render ++ u := by
      have hall : ∀ d : Fin 10, CodePoint.ofChar '[' ≠ CodePoint.ofDigit d := by decide
      rintro ⟨v, h⟩
      exact hall d (List.cons.inj h).1
    obtain ⟨rest, e, he⟩ := surroundedBy_unopened hunopened
    exact foldedAlt_right he (decimalDigit_text_cons d digit u)
  | list items =>
    rw [render_list_append] at hp ⊢
    have hitems := sepBy_text comma (fun s hs => hp s (Nat.lt_succ_of_le hs))
      (longest_closing items u)
    exact foldedAlt_left (surroundedBy_brackets hitems)

theorem nestedLevel_text_refuses {s : Text} (hs : ¬ s.BeginsWithList)
    (hp : ∀ s' : Text, s'.length < s.length → p.Decides s') :
    ∃ e, nestedLevel comma opening closing digit p (.text s) = pure (.failure (.text s) e) := by
  have hdigit : ∀ c, s.head? = some c → c.isDecimal = false := by
    intro c hc
    obtain ⟨u, rfl⟩ := List.head?_eq_some_iff.mp hc
    refine Bool.eq_false_iff.mpr fun hdecimal => ?_
    obtain ⟨d, rfl⟩ := CodePoint.exists_ofDigit hdecimal
    exact hs ⟨.digit d, u, rfl⟩
  have hrefuses := decimalDigit_text_refuses hdigit digit
  by_cases hopened : "[" <+: s
  · obtain ⟨t, rfl⟩ := hopened
    obtain ⟨items, u, rfl, hlongest⟩ := exists_longest t
    -- Closed at once, the row would be a list that the text begins with.
    have hunclosed : ¬ "]" <+: u := by
      rintro ⟨v, rfl⟩
      exact hs ⟨.list items, v, (render_list_append items v).symm⟩
    have hitems := sepBy_text comma (fun s' hs' => hp s' (Nat.lt_succ_of_le hs')) hlongest
    obtain ⟨rest, e, he⟩ := surroundedBy_unclosed hitems hunclosed
    exact ⟨_, foldedAlt_refuses he hrefuses⟩
  · obtain ⟨rest, e, he⟩ := surroundedBy_unopened hopened
    exact ⟨_, foldedAlt_refuses he hrefuses⟩

/-- A level decides every text if its items decide the shorter ones. -/
theorem decides_nestedLevel {s : Text} (hp : ∀ s' : Text, s'.length < s.length → p.Decides s') :
    (nestedLevel comma opening closing digit p).Decides s where
  reads := by
    rintro t u rfl
    exact nestedLevel_text t u hp
  refuses hs := nestedLevel_text_refuses hs hp

end Level

end Rule

namespace Grammar

variable (comma opening closing digit : Value) (i : Nat)

/-- A digit, or a list in brackets of what the given grammar reads. -/
def listOrDigit (g : Grammar) : Grammar :=
  wrap (.map .foldBranch) (join .alt
    (surroundedBy (join .sepBy g (leaf (.literal (.text ",") comma)))
      (leaf (.literal (.text "[") opening)) (leaf (.literal (.text "]") closing)))
    (wrap (.map .integer) (leaf (.element (.function i .isDigits) digit))))

/-- Nested lists of digits, with an error for each character that may be missing. -/
def digitLists : Grammar :=
  recursive "value" (listOrDigit comma opening closing digit i (ref "value"))

theorem run_listOrDigit (depth : Nat) (g : Grammar) :
    (listOrDigit comma opening closing digit i g).run depth =
      Rule.nestedLevel comma opening closing digit (g.run depth) := by
  rw [listOrDigit, run_wrap, run_join, run_surroundedBy, run_join, run_leaf, run_leaf, run_leaf,
    run_wrap, run_leaf]
  rfl

/-- One more call is one more level. -/
theorem run_digitLists_succ (depth : Nat) : ∃ comma' opening' closing' digit',
    (digitLists comma opening closing digit i).run (depth + 1) =
      Rule.nestedLevel comma' opening' closing' digit'
        ((digitLists comma opening closing digit i).run depth) := by
  rw [digitLists, run_recursive depth]
  exact ⟨_, _, _, _, run_listOrDigit _ _ _ _ i depth _⟩

/-- From some depth on a text is decided, the sooner the shorter it is. -/
theorem decides_digitLists (depth : Nat) : ∀ s : Text, s.length < depth →
    ((digitLists comma opening closing digit i).run depth).Decides s := by
  induction depth with
  | zero => exact fun s hs => absurd hs (Nat.not_lt_zero _)
  | succ depth ih =>
    intro s hs
    obtain ⟨comma', opening', closing', digit', hlevel⟩ :=
      run_digitLists_succ comma opening closing digit i depth
    rw [hlevel]
    -- Items stand behind a bracket, so they lie in a shorter text.
    exact Rule.decides_nestedLevel fun s' hs' => ih s' (by omega)

/-- The grammar for nested lists reads exactly the texts that begin with one, up to
its end, and outputs it. Every other text is refused as a whole. -/
theorem ends_digitLists_iff (made : Nat) (input : Text) :
    (∀ rest v, (digitLists comma opening closing digit i).Ends (.text input) made
        ⟨[], made, .ok (.success rest v)⟩ ↔
      ∃ (t : NestedList) (u : Text), input = t.render ++ u ∧ rest = .text u ∧ v = t.value) ∧
    (input.BeginsWithList ∨ ∃ e, (digitLists comma opening closing digit i).Ends (.text input) made
      ⟨[], made, .ok (.failure (.text input) e)⟩) := by
  have hdecides := decides_digitLists comma opening closing digit i (input.length + 1) input
    (Nat.lt_succ_self _)
  have hreads : ∀ (t : NestedList) (u : Text), input = t.render ++ u →
      (digitLists comma opening closing digit i).Ends (.text input) made
        ⟨[], made, .ok (.success (.text u) t.value)⟩ := fun t u h =>
    Ends.of_run (congrFun (hdecides.reads t u h) made) nofun
  have hrefuses : ¬ input.BeginsWithList →
      ∃ e, (digitLists comma opening closing digit i).Ends (.text input) made
        ⟨[], made, .ok (.failure (.text input) e)⟩ := by
    intro h
    obtain ⟨e, he⟩ := hdecides.refuses h
    exact ⟨e, Ends.of_run (congrFun he made) nofun⟩
  refine ⟨fun rest v => ⟨fun hends => ?_, ?_⟩, ?_⟩
  · by_cases hbegins : input.BeginsWithList
    · obtain ⟨t, u, h⟩ := hbegins
      have hsame := congrArg Trace.result (hends.unique (hreads t u h))
      obtain ⟨rfl, rfl⟩ := Value.success.inj (Except.ok.inj hsame)
      exact ⟨t, u, h, rfl, rfl⟩
    · obtain ⟨e, he⟩ := hrefuses hbegins
      cases Except.ok.inj (congrArg Trace.result (hends.unique he))
  · rintro ⟨t, u, h, rfl, rfl⟩
    exact hreads t u h
  · exact Classical.or_iff_not_imp_left.mpr hrefuses

example : (NestedList.list [.digit 1, .list [.digit 2, .digit 3], .list []]).render =
    ("[1,[2,3],[]]" : Text) := by decide

end Grammar

end ParserCombinators
