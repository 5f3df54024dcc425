import ParserCombinators.Proofs.Numeral

/-!
Lists of integers with commas between them. Every integer may have a sign and zeros in
front, and whitespace may stand around every integer and every comma. The parser reads
such a list whole, however it is written, and stops behind it: a comma that no integer
follows is left.
-/

namespace ParserCombinators

open Run

namespace Text

/-- The numeral of a number behind any zeros, short enough to be read. -/
structure PaddedNumeral (n : Nat) (t : Text) : Prop where
  zeros : ∃ k, t = List.replicate k (CodePoint.ofDigit 0) ++ ofNat n
  short : t.length ≤ maximalDigits

/-- A text that is a way to write an integer. -/
inductive SpellsInteger : Int → Text → Prop
  | unsigned {n : Nat} {t : Text} (h : PaddedNumeral n t) : SpellsInteger n t
  | plus {n : Nat} {t : Text} (h : PaddedNumeral n t) : SpellsInteger n ("+" ++ t)
  | minus {n : Nat} {t : Text} (h : PaddedNumeral n t) : SpellsInteger (-n) ("-" ++ t)

/-- Whitespace and nothing else. -/
def Blank (t : Text) : Prop := ∀ c ∈ t, c ∈ CharacterSet.whitespaces

instance (t : Text) : Decidable (Blank t) := List.decidableBAll _ t

/-- A text with whitespace before and after it. -/
def Spaced (core t : Text) : Prop :=
  ∃ before after, Blank before ∧ Blank after ∧ t = before ++ (core ++ after)

/-- A text that lists integers, with whitespace around every one and every comma. -/
inductive ListsIntegers : List Int → Text → Prop
  | last {n : Int} {core item : Text} (hspells : SpellsInteger n core)
    (hitem : Spaced core item) : ListsIntegers [n] item
  | next {n : Int} {ns : List Int} {core item comma t : Text} (hspells : SpellsInteger n core)
    (hitem : Spaced core item) (hcomma : Spaced "," comma) (hrest : ListsIntegers ns t) :
    ListsIntegers (n :: ns) (item ++ (comma ++ t))

section Spelling

variable {n : Nat} {t : Text}

theorem numeralValue_zeros (k : Nat) (t : Text) :
    numeralValue 10 (List.replicate k (CodePoint.ofDigit 0) ++ t) = numeralValue 10 t := by
  induction k with
  | zero => rfl
  | succ k ih => exact ih

theorem PaddedNumeral.decimal (h : PaddedNumeral n t) : Decimal t := by
  obtain ⟨k, rfl⟩ := h.zeros
  intro c hc
  rcases List.mem_append.mp hc with hc | hc
  · rw [List.eq_of_mem_replicate hc]
    exact CodePoint.ofDigit_mem_decimal (by decide)
  · exact decimal_ofNat n c hc

theorem PaddedNumeral.ne_nil (h : PaddedNumeral n t) : t ≠ [] := by
  obtain ⟨k, rfl⟩ := h.zeros
  exact List.append_ne_nil_of_right_ne_nil _ (ofNat_ne_nil n)

theorem PaddedNumeral.numeralValue (h : PaddedNumeral n t) : numeralValue 10 t = n := by
  obtain ⟨k, rfl⟩ := h.zeros
  rw [numeralValue_zeros, numeralValue_ofNat]

/-- However an integer is written, it is a sign with digits whose value it is. -/
theorem SpellsInteger.exists_digits {n : Int} (h : SpellsInteger n t) :
    ∃ sign digits, t = sign ++ digits ∧ Sign sign ∧ Decimal digits ∧ digits ≠ [] ∧
      digits.length ≤ maximalDigits ∧ signedValue sign digits = n := by
  cases h with
  | @unsigned n t h =>
    refine ⟨[], t, rfl, .inl rfl, h.decimal, h.ne_nil, h.short, ?_⟩
    rw [signedValue, if_neg (by decide), h.numeralValue]
  | @plus n t h =>
    refine ⟨"+", t, rfl, .inr ⟨.ofChar '+', by decide, rfl⟩, h.decimal, h.ne_nil, h.short, ?_⟩
    rw [signedValue, if_neg (by decide), h.numeralValue]
  | @minus n t h =>
    refine ⟨"-", t, rfl, .inr ⟨.ofChar '-', by decide, rfl⟩, h.decimal, h.ne_nil, h.short, ?_⟩
    rw [signedValue, if_pos rfl, h.numeralValue]

theorem not_whitespace_of_decimal {c : CodePoint} (hc : c ∈ CharacterSet.decimal) :
    c ∉ CharacterSet.whitespaces := by
  revert c
  decide

theorem not_decimal_of_whitespace {c : CodePoint} (hc : c ∈ CharacterSet.whitespaces) :
    c ∉ CharacterSet.decimal :=
  fun hdecimal => not_whitespace_of_decimal hdecimal hc

theorem not_whitespace_of_sign {c : CodePoint} (hc : c ∈ CharacterSet.signs) :
    c ∉ CharacterSet.whitespaces := by
  revert c
  decide

theorem SpellsInteger.head_not_whitespace {n : Int} (h : SpellsInteger n t) (u : Text) :
    ∀ c, (t ++ u).head? = some c → c ∉ CharacterSet.whitespaces := by
  obtain ⟨sign, digits, rfl, hsign, hdigits, hne, -, -⟩ := h.exists_digits
  obtain rfl | ⟨s, hs, rfl⟩ := hsign
  · obtain ⟨d, digits, rfl⟩ := List.exists_cons_of_ne_nil hne
    exact forall_head?_cons (not_whitespace_of_decimal (hdigits d List.mem_cons_self)) _
  · exact forall_head?_cons (not_whitespace_of_sign hs) _

end Spelling

section Spacing

variable {core t u : Text}

/-- With whitespace in front a text still does not begin with a digit. -/
theorem Blank.head_not_decimal (ht : Blank t) (hu : ∀ c, u.head? = some c →
    c ∉ CharacterSet.decimal) : ∀ c, (t ++ u).head? = some c → c ∉ CharacterSet.decimal := by
  cases t with
  | nil => exact hu
  | cons d t =>
    exact forall_head?_cons (not_decimal_of_whitespace (ht d List.mem_cons_self)) _

theorem comma_head_not_whitespace (u : Text) :
    ∀ c, (("," : Text) ++ u).head? = some c → c ∉ CharacterSet.whitespaces :=
  forall_head?_cons (by decide) u

theorem comma_head_not_decimal (u : Text) :
    ∀ c, (("," : Text) ++ u).head? = some c → c ∉ CharacterSet.decimal :=
  forall_head?_cons (by decide) u

theorem Spaced.comma_head_not_decimal (h : Spaced "," t) (u : Text) :
    ∀ c, (t ++ u).head? = some c → c ∉ CharacterSet.decimal := by
  obtain ⟨before, after, hbefore, -, rfl⟩ := h
  rw [List.append_assoc]
  exact hbefore.head_not_decimal (Text.comma_head_not_decimal _)

/-- Without the whitespace in front there is the text itself, and what follows it. -/
theorem Spaced.trimStart_append (h : Spaced core t)
    (hcore : ∀ u c, (core ++ u).head? = some c → c ∉ CharacterSet.whitespaces) (u : Text) :
    ∃ after, Blank after ∧ (t ++ u).trimStart = core ++ (after ++ u) := by
  obtain ⟨before, after, hbefore, hafter, rfl⟩ := h
  refine ⟨after, hafter, ?_⟩
  rw [List.append_assoc, Text.trimStart_append hbefore, List.append_assoc,
    trimStart_of_head? (hcore _)]

end Spacing

end Text

open Text

namespace Rule

variable {x tail : Text} {error : Value}

section Round

variable {core item comma u : Text} {n : Int}

/-- An integer is read with the whitespace around it, also that in front of what follows. -/
theorem lexeme_integer_text (hspells : SpellsInteger n core) (hitem : Spaced core item)
    (hu : ∀ c, u.head? = some c → c ∉ CharacterSet.decimal)
    (hx : x.trimStart = (item ++ u).trimStart) :
    integer.lexeme (.text x) = pure (.success (.text u.trimStart) (.int n)) := by
  obtain ⟨after, hafter, htrim⟩ := hitem.trimStart_append hspells.head_not_whitespace u
  obtain ⟨sign, digits, rfl, hsign, hdigits, hne, hshort, hvalue⟩ := hspells.exists_digits
  have hread := integer_text hsign hdigits hne (hafter.head_not_decimal hu)
  rw [if_pos hshort, hvalue, ← List.append_assoc, ← htrim, ← hx] at hread
  rw [lexeme_of_success hread, Text.trimStart_append hafter]

theorem lexeme_comma_text (error : Value) (hcomma : Spaced "," comma)
    (hx : x.trimStart = (comma ++ u).trimStart) :
    (literal (.text ",") error).lexeme (.text x) =
      pure (.success (.text u.trimStart) (.text ",")) := by
  obtain ⟨after, hafter, htrim⟩ := hcomma.trimStart_append comma_head_not_whitespace u
  have hread : literal (.text ",") error (.text ("," ++ (after ++ u))) = _ :=
    literal_text_append "," (after ++ u)
  rw [← htrim, ← hx] at hread
  rw [lexeme_of_success hread, Text.trimStart_append hafter]

/-- A comma with an integer behind it is one round. -/
theorem separatedFrom_integer_step (hcomma : Spaced "," comma) (hspells : SpellsInteger n core)
    (hitem : Spaced core item) (hu : ∀ c, u.head? = some c → c ∉ CharacterSet.decimal)
    (hx : x.trimStart = (comma ++ (item ++ u)).trimStart) (outputs : List Value) :
    separatedFrom integer.lexeme (literal (.text ",") error).lexeme outputs (.text x) =
      separatedFrom integer.lexeme (literal (.text ",") error).lexeme (outputs ++ [.int n])
        (.text u.trimStart) := by
  have hseparator := lexeme_comma_text error hcomma hx
  have hnumber := lexeme_integer_text hspells hitem hu (item ++ u).trimStart_trimStart
  have hsmaller : (Value.text u.trimStart).size < (Value.text x).size := by
    obtain ⟨after, -, htrim⟩ := hcomma.trimStart_append comma_head_not_whitespace (item ++ u)
    have hsuffix : u <:+ after ++ (item ++ u) :=
      (List.suffix_append item u).trans (List.suffix_append after _)
    have hshorter := (u.trimStart_suffix.trans hsuffix).length_le
    have hlonger := x.trimStart_suffix.length_le
    have hcons : (("," : Text) ++ (after ++ (item ++ u))).length =
        (after ++ (item ++ u)).length + 1 := rfl
    rw [hx, htrim, hcons] at hlonger
    simp only [Value.size]
    omega
  rw [separatedFrom, hseparator]
  simp [hnumber, Value.comparable, Value.isSequence, hsmaller]

end Round

/-- What ends a list: no digit and no whitespace goes on behind it, and no round either. -/
structure EndsList (error : Value) (tail : Text) : Prop where
  blank : ∀ c, tail.head? = some c → c ∉ CharacterSet.whitespaces
  decimal : ∀ c, tail.head? = some c → c ∉ CharacterSet.decimal
  stop : ∀ outputs, separatedFrom integer.lexeme (literal (.text ",") error).lexeme outputs
    (.text tail) = pure (.text tail, outputs)

/-- Where no comma follows, the list is over. -/
theorem endsList_of_head (hblank : ∀ c, tail.head? = some c → c ∉ CharacterSet.whitespaces)
    (hdecimal : ∀ c, tail.head? = some c → c ∉ CharacterSet.decimal)
    (hcomma : tail.head? ≠ some (CodePoint.ofChar ',')) : EndsList error tail where
  blank := hblank
  decimal := hdecimal
  stop outputs := by
    have hnone : ¬ ("," : Text) <+: tail.trimStart := by
      rw [trimStart_of_head? hblank]
      rintro ⟨t, rfl⟩
      exact hcomma rfl
    rw [separatedFrom, lexeme_of_failure (literal_text_refuses hnone)]
    simp

/-- A comma that no integer follows is left. -/
theorem endsList_comma (hblank : ∀ c, tail.head? = some c → c ∉ CharacterSet.whitespaces)
    (hdecimal : ∀ c, tail.head? = some c → c ∉ CharacterSet.decimal)
    (hsign : ∀ c, tail.head? = some c → c ∉ CharacterSet.signs) :
    EndsList error ("," ++ tail) where
  blank := comma_head_not_whitespace tail
  decimal := comma_head_not_decimal tail
  stop outputs := by
    have hcomma : Spaced "," "," := ⟨[], [], nofun, nofun, rfl⟩
    have hseparator := lexeme_comma_text (u := tail) error hcomma rfl
    have hnone : integer (.text ([] ++ tail)) = _ :=
      integer_text_refuses (.inl rfl) hdecimal fun _ => hsign
    have htrim : tail.trimStart.trimStart = tail := by
      rw [trimStart_trimStart, trimStart_of_head? hblank]
    rw [List.nil_append, ← htrim] at hnone
    rw [separatedFrom, hseparator]
    simp [lexeme_of_failure hnone]

/-- The rounds read a list that a comma stands in front of. The integer before has taken
the whitespace in front of the comma, so where they begin is known up to whitespace. -/
theorem separatedFrom_integers {ns : List Int} {t : Text} (hlist : ListsIntegers ns t)
    (hend : EndsList error tail) :
    ∀ {comma : Text} {x : Text} (outputs : List Value), Spaced "," comma →
      x.trimStart = (comma ++ (t ++ tail)).trimStart →
      separatedFrom integer.lexeme (literal (.text ",") error).lexeme outputs (.text x) =
        pure (.text tail, outputs ++ ns.map .int) := by
  induction hlist with
  | last hspells hitem =>
    intro comma x outputs hcomma hx
    rw [separatedFrom_integer_step hcomma hspells hitem hend.decimal hx,
      trimStart_of_head? hend.blank, hend.stop]
    rfl
  | @next n ns core item comma' t hspells hitem hcomma' _ ih =>
    intro comma x outputs hcomma hx
    rw [List.append_assoc, List.append_assoc] at hx
    rw [separatedFrom_integer_step hcomma hspells hitem (hcomma'.comma_head_not_decimal _) hx,
      ih _ hcomma' (trimStart_trimStart _), List.append_assoc]
    rfl

/-- A list is read up to its end. -/
theorem sepBy_integers {ns : List Int} {t : Text} (hlist : ListsIntegers ns t)
    (hend : EndsList error tail) :
    integer.lexeme.sepBy (literal (.text ",") error).lexeme (.text (t ++ tail)) =
      pure (.success (.text tail) (.list (ns.map .int))) := by
  cases hlist with
  | last hspells hitem =>
    rw [sepBy, lexeme_integer_text hspells hitem hend.decimal rfl, trimStart_of_head? hend.blank]
    simp [hend.stop, accept]
  | @next n ns core item comma t hspells hitem hcomma hrest =>
    have hx : (item ++ (comma ++ t) ++ tail).trimStart =
        (item ++ (comma ++ (t ++ tail))).trimStart := by
      rw [List.append_assoc, List.append_assoc]
    rw [sepBy, lexeme_integer_text hspells hitem (hcomma.comma_head_not_decimal _) hx]
    simp [separatedFrom_integers hrest hend _ hcomma (trimStart_trimStart _), accept]

end Rule

namespace Grammar

/-- Integers with commas between them, and whitespace around all of them. -/
def integerList (error : Value) : Grammar :=
  join .sepBy (wrap .lexeme (leaf .integer)) (wrap .lexeme (leaf (.literal (.text ",") error)))

/-- A list of integers is read whole, however each of them is written and wherever
whitespace stands. It is left where something follows that does not belong to it, and a
comma belongs to it only with an integer behind it. -/
theorem run_integerList (error : Value) (depth : Nat) {ns : List Int} {t tail : Text}
    (hlist : Text.ListsIntegers ns t)
    (htail : ∀ c, tail.head? = some c → c ∉ CharacterSet.whitespaces ∧
      c ∉ CharacterSet.decimal ∧ c ≠ CodePoint.ofChar ',') :
    (integerList error).run depth (.text (t ++ tail)) =
        pure (.success (.text tail) (.list (ns.map .int))) ∧
      ((∀ c, tail.head? = some c → c ∉ CharacterSet.signs) →
        (integerList error).run depth (.text (t ++ ("," ++ tail))) =
          pure (.success (.text ("," ++ tail)) (.list (ns.map .int)))) := by
  have hrun : (integerList error).run depth =
      Rule.integer.lexeme.sepBy (Rule.literal (.text ",") error).lexeme := by
    rw [integerList, run_join, run_wrap, run_wrap, run_leaf, run_leaf]
    rfl
  have hblank := fun c hc => (htail c hc).1
  have hdecimal := fun c hc => (htail c hc).2.1
  rw [hrun]
  refine ⟨Rule.sepBy_integers hlist (Rule.endsList_of_head hblank hdecimal ?_), fun hsign => ?_⟩
  · exact fun hc => (htail _ hc).2.2 rfl
  · exact Rule.sepBy_integers hlist (Rule.endsList_comma hblank hdecimal hsign)

/-- Signs, zeros in front, whitespace of all kinds and a comma too many. -/
theorem run_integerList_trailingComma :
    Text.ListsIntegers [7, -2] "+007 \t,\n-2 " ∧
      (∀ c, ("]" : Text).head? = some c → c ∉ CharacterSet.whitespaces ∧
        c ∉ CharacterSet.decimal ∧ c ≠ CodePoint.ofChar ',') ∧
      (integerList .none).run 0 (.text ("+007 \t,\n-2 " ++ "]")) =
        pure (.success (.text "]") (.list [.int 7, .int (-2)])) ∧
      (integerList .none).run 0 (.text ("+007 \t,\n-2 " ++ ("," ++ "]"))) =
        pure (.success (.text ("," ++ "]")) (.list [.int 7, .int (-2)])) := by
  have hseven : Text.PaddedNumeral 7 "007" := by
    refine ⟨⟨2, ?_⟩, by decide⟩
    rw [Text.ofNat_of_lt (by decide)]
    rfl
  have htwo : Text.PaddedNumeral 2 "2" := by
    refine ⟨⟨0, ?_⟩, by decide⟩
    rw [Text.ofNat_of_lt (by decide)]
    rfl
  have hlist : Text.ListsIntegers [7, -2] "+007 \t,\n-2 " := by
    have hfirst : Text.Spaced ("+" ++ "007") "+007 " := ⟨[], " ", by decide, by decide, rfl⟩
    have hcomma : Text.Spaced "," "\t,\n" := ⟨"\t", "\n", by decide, by decide, rfl⟩
    have hsecond : Text.Spaced ("-" ++ "2") "-2 " := ⟨[], " ", by decide, by decide, rfl⟩
    exact .next (.plus hseven) hfirst hcomma (.last (.minus htwo) hsecond)
  have htail : ∀ c, ("]" : Text).head? = some c → c ∉ CharacterSet.whitespaces ∧
      c ∉ CharacterSet.decimal ∧ c ≠ CodePoint.ofChar ',' :=
    Text.forall_head?_cons (by decide) []
  have hsign : ∀ c, ("]" : Text).head? = some c → c ∉ CharacterSet.signs :=
    Text.forall_head?_cons (by decide) []
  exact ⟨hlist, htail, (run_integerList .none 0 hlist htail).1,
    (run_integerList .none 0 hlist htail).2 hsign⟩

end Grammar

end ParserCombinators
