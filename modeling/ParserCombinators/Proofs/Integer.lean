import ParserCombinators.Lexical.Integer
import ParserCombinators.Proofs.Rule.Structure
import ParserCombinators.Proofs.Rule.Text

/-!
What `integer` does on a text, to the letter. It reads a sign, if there is one,
and all digits that follow. Without a digit it fails where it began, and with
more digits than a number may be read from it ends the run.
-/

namespace ParserCombinators

open Run

namespace Text

/-- Digits, as a text. -/
def Decimal (digits : Text) : Prop := ∀ c ∈ digits, c ∈ CharacterSet.decimal

/-- A sign, or nothing. -/
def Sign (sign : Text) : Prop := sign = [] ∨ ∃ c ∈ CharacterSet.signs, sign = [c]

/-- The value of a sign with digits. -/
def signedValue (sign digits : Text) : Int :=
  if sign = "-" then -(numeralValue 10 digits : Int) else numeralValue 10 digits

section Reading

variable {c : CodePoint} {sign digits t : Text}

theorem val_of_decimal (hc : c ∈ CharacterSet.decimal) : 48 ≤ c.val ∧ c.val ≤ 57 := by
  revert c
  decide

theorem decimalDigit?_of_decimal (hc : c ∈ CharacterSet.decimal) :
    c.decimalDigit? = some (c.val - 48) := by
  have hval := val_of_decimal hc
  simp [CodePoint.decimalDigit?, CodePoint.decimalZeros, hval]

theorem digit?_of_decimal (hc : c ∈ CharacterSet.decimal) : c.digit? = some (c.val - 48) := by
  rw [CodePoint.digit?, if_pos (val_of_decimal hc)]

theorem isBlank_of_decimal (hc : c ∈ CharacterSet.decimal) : c.isBlank = false := by
  revert c
  decide

theorem isBlank_of_sign (hc : c ∈ CharacterSet.signs) : c.isBlank = false := by
  revert c
  decide

theorem ne_underscore_of_decimal (hc : c ∈ CharacterSet.decimal) : c ≠ CodePoint.ofChar '_' := by
  revert c
  decide

theorem mem_signs : c ∈ CharacterSet.signs ↔ c = CodePoint.ofChar '+' ∨ c = CodePoint.ofChar '-' := by
  have hsigns : CharacterSet.signs = [CodePoint.ofChar '+', CodePoint.ofChar '-'] := rfl
  rw [hsigns]
  simp

theorem not_sign_of_decimal (hc : c ∈ CharacterSet.decimal) : c ∉ CharacterSet.signs := by
  revert c
  decide

/-- A row of digits holds their values. -/
theorem digitValues?_of_decimal (hdigits : Decimal digits) (hne : digits ≠ []) :
    digitValues? digits = some (digits.map fun c => c.val - 48) := by
  induction digits with
  | nil => exact absurd rfl hne
  | cons c digits ih =>
    obtain ⟨hc, hdigits⟩ := List.forall_mem_cons.mp hdigits
    cases digits with
    | nil => simp [digitValues?, decimalDigit?_of_decimal hc]
    | cons d digits =>
      have hd := ne_underscore_of_decimal (hdigits d List.mem_cons_self)
      simp [digitValues?, decimalDigit?_of_decimal hc, hd, ih hdigits (List.cons_ne_nil d digits)]

theorem foldl_digits (hdigits : Decimal digits) (n : Nat) :
    (digits.map fun c => c.val - 48).foldl (fun n d => 10 * n + d) n =
      digits.foldl (fun n c => 10 * n + c.digit?.getD 0) n := by
  induction digits generalizing n with
  | nil => rfl
  | cons c digits ih =>
    obtain ⟨hc, hdigits⟩ := List.forall_mem_cons.mp hdigits
    rw [List.map_cons, List.foldl_cons, List.foldl_cons, ih hdigits, digit?_of_decimal hc]
    rfl

theorem natural?_of_decimal (hdigits : Decimal digits) (hne : digits ≠ []) :
    natural? digits =
      if digits.length ≤ maximalDigits then some (numeralValue 10 digits) else none := by
  rw [natural?, digitValues?_of_decimal hdigits hne]
  simp only [Option.bind_eq_bind, Option.bind_some, List.length_map, foldl_digits hdigits,
    numeralValue]
  rfl

theorem trimBlanks_eq_self (h : ∀ c ∈ t, c.isBlank = false) : t.trimBlanks = t := by
  have hdrop : ∀ u : Text, (∀ c ∈ u, c.isBlank = false) → u.dropWhile (·.isBlank) = u := by
    intro u hu
    cases u with
    | nil => rfl
    | cons c u => rw [List.dropWhile_cons_of_neg (by simp [hu c List.mem_cons_self])]
  rw [trimBlanks, hdrop t h, hdrop t.reverse fun c hc => h c (List.mem_reverse.mp hc),
    List.reverse_reverse]

/-- A sign with digits is read as the number that they spell, unless there are too
many of them. -/
theorem integer?_of_decimal (hsign : Sign sign) (hdigits : Decimal digits) (hne : digits ≠ []) :
    integer? (sign ++ digits) =
      if digits.length ≤ maximalDigits then some (signedValue sign digits) else none := by
  have hblank : ∀ c ∈ sign ++ digits, c.isBlank = false := by
    intro c hc
    rcases List.mem_append.mp hc with hc | hc
    · obtain rfl | ⟨s, hs, rfl⟩ := hsign
      · cases hc
      · exact isBlank_of_sign (List.mem_singleton.mp hc ▸ hs)
    · exact isBlank_of_decimal (hdigits c hc)
  rw [integer?, trimBlanks_eq_self hblank]
  obtain rfl | ⟨s, hs, rfl⟩ := hsign
  · obtain ⟨c, digits, rfl⟩ := List.exists_cons_of_ne_nil hne
    have hc : c ≠ CodePoint.ofChar '+' ∧ c ≠ CodePoint.ofChar '-' :=
      not_or.mp fun h => not_sign_of_decimal (hdigits c List.mem_cons_self) (mem_signs.mpr h)
    have hvalue : signedValue [] (c :: digits) = numeralValue 10 (c :: digits) :=
      if_neg (by decide)
    rw [List.nil_append, hvalue]
    simp only [if_neg hc.1, if_neg hc.2, natural?_of_decimal hdigits hne]
    split <;> rfl
  · rw [List.singleton_append]
    simp only [natural?_of_decimal hdigits hne]
    rcases mem_signs.mp hs with rfl | rfl
    · have hvalue : signedValue [CodePoint.ofChar '+'] digits = numeralValue 10 digits :=
        if_neg (by decide)
      rw [if_neg (by decide), if_pos rfl, hvalue]
      split <;> rfl
    · have hvalue : signedValue [CodePoint.ofChar '-'] digits = -(numeralValue 10 digits : Int) :=
        if_pos rfl
      rw [if_pos rfl, hvalue]
      split <;> rfl

end Reading

/-- Every text begins with a row of digits, which may be empty. -/
theorem exists_decimal_row (t : Text) :
    ∃ digits u, t = digits ++ u ∧ Decimal digits ∧
      ∀ c, u.head? = some c → c ∉ CharacterSet.decimal := by
  induction t with
  | nil => exact ⟨[], [], rfl, nofun, nofun⟩
  | cons c t ih =>
    by_cases hc : c ∈ CharacterSet.decimal
    · obtain ⟨digits, u, rfl, hdigits, hu⟩ := ih
      exact ⟨c :: digits, u, rfl, List.forall_mem_cons.mpr ⟨hc, hdigits⟩, hu⟩
    · exact ⟨[], c :: t, rfl, nofun, forall_head?_cons hc t⟩

/-- A text begins with a sign, if it has one, and a row of digits. -/
theorem exists_signed_row (t : Text) :
    ∃ sign digits u, t = sign ++ (digits ++ u) ∧ Sign sign ∧ Decimal digits ∧
      (∀ c, u.head? = some c → c ∉ CharacterSet.decimal) ∧
      (sign = [] → ∀ c, (digits ++ u).head? = some c → c ∉ CharacterSet.signs) := by
  by_cases hstart : ∃ s v, t = s :: v ∧ s ∈ CharacterSet.signs
  · obtain ⟨s, v, rfl, hs⟩ := hstart
    obtain ⟨digits, u, rfl, hdigits, hu⟩ := exists_decimal_row v
    exact ⟨[s], digits, u, rfl, .inr ⟨s, hs, rfl⟩, hdigits, hu, nofun⟩
  · obtain ⟨digits, u, rfl, hdigits, hu⟩ := exists_decimal_row t
    refine ⟨[], digits, u, rfl, .inl rfl, hdigits, hu, fun _ c hc hmem => hstart ?_⟩
    obtain ⟨v, hv⟩ := List.head?_eq_some_iff.mp hc
    exact ⟨c, v, hv, hmem⟩

end Text

namespace Rule

variable {sign digits u : Text}

theorem maybe_sign_text {message : Text} (hsign : Text.Sign sign)
    (hstart : sign = [] → ∀ c, u.head? = some c → c ∉ CharacterSet.signs) :
    (characterOf CharacterSet.signs message).maybe (.text (sign ++ u)) =
      pure (.success (.text u) (if sign = [] then .none else .text sign)) := by
  obtain rfl | ⟨s, hs, rfl⟩ := hsign
  · exact maybe_characterOf_text_none (hstart rfl)
  · exact maybe_characterOf_text_cons hs u

theorem signedInteger_text (hsign : Text.Sign sign) (hdigits : Text.Decimal digits)
    (hne : digits ≠ []) :
    signedInteger (.tuple [if sign = [] then .none else .text sign,
        .list (digits.map fun d => .text [d])]) =
      if digits.length ≤ Text.maximalDigits then
        pure (.int (Text.signedValue sign digits)) else Run.fail .badValue := by
  have hspelled : (if (if sign = [] then Value.none else .text sign).isTrue = true then
      (if sign = [] then Value.none else .text sign) else .text []).plus (.text digits) =
        pure (.text (sign ++ digits)) := by
    obtain rfl | ⟨s, -, rfl⟩ := hsign <;> rfl
  rw [signedInteger, Value.item_zero_pair, pure_bind, Value.item_one_pair, pure_bind,
    Value.join_characters, pure_bind, hspelled, pure_bind, Value.toInteger, Value.readInteger,
    Text.integer?_of_decimal hsign hdigits hne]
  by_cases hlength : digits.length ≤ Text.maximalDigits
  · rw [if_pos hlength, if_pos hlength]
    rfl
  · rw [if_neg hlength, if_neg hlength]
    rfl

/-- A sign with digits is read as the number that it spells, whatever follows the
digits. Too many digits end the run. -/
theorem integer_text (hsign : Text.Sign sign) (hdigits : Text.Decimal digits)
    (hne : digits ≠ []) (hu : ∀ c, u.head? = some c → c ∉ CharacterSet.decimal) :
    integer (.text (sign ++ (digits ++ u))) =
      if digits.length ≤ Text.maximalDigits then
        pure (.success (.text u) (.int (Text.signedValue sign digits)))
      else Run.fail .badValue := by
  have hstart : sign = [] → ∀ c, (digits ++ u).head? = some c → c ∉ CharacterSet.signs := by
    intro _
    obtain ⟨d, digits, rfl⟩ := List.exists_cons_of_ne_nil hne
    exact Text.forall_head?_cons (Text.not_sign_of_decimal (hdigits d List.mem_cons_self)) _
  have hcount : ¬ ([] : List Value).length + digits.length < 1 := by
    have hpos := List.length_pos_iff.mpr hne
    simp only [List.length_nil]
    omega
  rw [integer, backtrack, fold, mapError, map, seq, maybe_sign_text hsign hstart, atLeast]
  simp only [pure_bind, Value.isTrue_success, if_true, Value.rest_success,
    atLeastFrom_characterOf_text hdigits hu, if_neg hcount, Value.output_success, accept,
    List.nil_append, signedInteger_text hsign hdigits hne]
  by_cases hlength : digits.length ≤ Text.maximalDigits
  · rw [if_pos hlength, if_pos hlength]
    rfl
  · rw [if_neg hlength, if_neg hlength]
    rfl

/-- Without a digit a text is refused where it begins. -/
theorem integer_text_refuses (hsign : Text.Sign sign)
    (hu : ∀ c, u.head? = some c → c ∉ CharacterSet.decimal)
    (hstart : sign = [] → ∀ c, u.head? = some c → c ∉ CharacterSet.signs) :
    integer (.text (sign ++ u)) =
      pure (.failure (.text (sign ++ u)) (.text "Expected an integer.")) := by
  have hnone : atLeastFrom 1 (.text "Expected an integer.")
      (characterOf CharacterSet.decimal "Expected a digit.") [] (.text u) =
        pure (.failure (.text u) (.text "Expected an integer.")) :=
    atLeastFrom_characterOf_text (fun d (hd : d ∈ []) => nomatch hd) hu []
  rw [integer, backtrack, fold, mapError, map, seq, maybe_sign_text hsign hstart, atLeast]
  simp only [pure_bind, Value.isTrue_success, if_true, Value.rest_success, hnone]
  rfl

end Rule

end ParserCombinators
