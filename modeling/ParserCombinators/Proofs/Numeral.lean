import Mathlib.Data.List.TakeWhile
import ParserCombinators.Proofs.Grammar.Borrow
import ParserCombinators.Proofs.Integer

/-!
Integers and their numerals. The parser for integers takes a sign, if the text
begins with one, and all digits after it, and outputs the number that they spell.
The numeral that an integer is written with spells that integer, so it is read back
whatever follows it that is no digit.
-/

namespace ParserCombinators

namespace CodePoint

theorem ofDigit_mem_decimal {d : Nat} (hd : d < 10) : ofDigit d ∈ CharacterSet.decimal := by
  have hall : ∀ d < 10, ofDigit d ∈ CharacterSet.decimal := by decide
  exact hall d hd

theorem digit?_ofDigit {d : Nat} (hd : d < 10) : (ofDigit d).digit? = some d := by
  have hall : ∀ d < 10, (ofDigit d).digit? = some d := by decide
  exact hall d hd

end CodePoint

namespace Text

section Numeral

theorem ofNat_of_lt {n : Nat} (hn : n < 10) : ofNat n = [CodePoint.ofDigit n] := by
  rw [ofNat, numeral, if_neg (by omega)]

theorem ofNat_of_le {n : Nat} (hn : 10 ≤ n) :
    ofNat n = ofNat (n / 10) ++ [CodePoint.ofDigit (n % 10)] := by
  rw [ofNat, numeral, if_pos ⟨by omega, hn⟩]
  rfl

theorem ofNat_ne_nil (n : Nat) : ofNat n ≠ [] := by
  by_cases hn : n < 10
  · rw [ofNat_of_lt hn]
    exact List.cons_ne_nil _ _
  · rw [ofNat_of_le (Nat.le_of_not_lt hn)]
    exact List.append_ne_nil_of_right_ne_nil _ (List.cons_ne_nil _ _)

theorem decimal_ofNat (n : Nat) : Decimal (ofNat n) := by
  induction n using Nat.strongRecOn with
  | ind n ih =>
    intro c hc
    by_cases hn : n < 10
    · rw [ofNat_of_lt hn] at hc
      rw [List.mem_singleton.mp hc]
      exact CodePoint.ofDigit_mem_decimal hn
    · rw [ofNat_of_le (Nat.le_of_not_lt hn)] at hc
      rcases List.mem_append.mp hc with hc | hc
      · exact ih (n / 10) (by omega) c hc
      · rw [List.mem_singleton.mp hc]
        exact CodePoint.ofDigit_mem_decimal (by omega)

/-- The numeral of a number spells it. -/
theorem numeralValue_ofNat (n : Nat) : numeralValue 10 (ofNat n) = n := by
  induction n using Nat.strongRecOn with
  | ind n ih =>
    by_cases hn : n < 10
    · rw [ofNat_of_lt hn]
      simp [numeralValue, CodePoint.digit?_ofDigit hn]
    · have hdigit := CodePoint.digit?_ofDigit (Nat.mod_lt n (by omega : 10 > 0))
      have hlast : numeralValue 10 (ofNat n) = 10 * numeralValue 10 (ofNat (n / 10)) + n % 10 := by
        rw [ofNat_of_le (Nat.le_of_not_lt hn)]
        simp [numeralValue, hdigit]
      rw [hlast, ih (n / 10) (by omega)]
      omega

/-- An integer is written as its sign, if it is negative, and the numeral of its
absolute value. -/
theorem exists_sign_ofInt (n : Int) :
    ∃ sign, ofInt n = sign ++ ofNat n.natAbs ∧ Sign sign ∧
      signedValue sign (ofNat n.natAbs) = n := by
  by_cases hn : n < 0
  · refine ⟨"-", if_pos hn, .inr ⟨.ofChar '-', by decide, rfl⟩, ?_⟩
    rw [signedValue, if_pos rfl, numeralValue_ofNat]
    omega
  · refine ⟨[], if_neg hn, .inl rfl, ?_⟩
    rw [signedValue, if_neg (by decide), numeralValue_ofNat]
    omega

end Numeral

section Leading

/-- The sign that a text begins with, if it does begin with one. -/
def leadingSign : Text → Text
  | [] => []
  | c :: _ => if c ∈ CharacterSet.signs then [c] else []

/-- A text without the sign that it may begin with. -/
def unsigned (t : Text) : Text := t.drop t.leadingSign.length

/-- The longest row of digits after the sign. -/
def leadingDigits (t : Text) : Text := t.unsigned.takeWhile (· ∈ CharacterSet.decimal)

/-- What follows the sign and the digits. -/
def afterDigits (t : Text) : Text := t.unsigned.dropWhile (· ∈ CharacterSet.decimal)

theorem leadingSign_append_unsigned (t : Text) : t.leadingSign ++ t.unsigned = t := by
  cases t with
  | nil => rfl
  | cons c t =>
    by_cases hc : c ∈ CharacterSet.signs
    · simp [unsigned, leadingSign, hc]
    · simp [unsigned, leadingSign, hc]

theorem sign_leadingSign (t : Text) : Sign t.leadingSign := by
  cases t with
  | nil => exact .inl rfl
  | cons c t =>
    by_cases hc : c ∈ CharacterSet.signs
    · exact .inr ⟨c, hc, if_pos hc⟩
    · exact .inl (if_neg hc)

theorem head?_of_leadingSign {t : Text} (h : t.leadingSign = []) :
    ∀ c, t.head? = some c → c ∉ CharacterSet.signs := by
  intro c hc hmem
  obtain ⟨u, rfl⟩ := List.head?_eq_some_iff.mp hc
  rw [leadingSign, if_pos hmem] at h
  exact List.cons_ne_nil c [] h

theorem leadingDigits_append_afterDigits (t : Text) :
    t.leadingDigits ++ t.afterDigits = t.unsigned :=
  List.takeWhile_append_dropWhile

theorem decimal_leadingDigits (t : Text) : Decimal t.leadingDigits := by
  intro c hc
  have hdigit := List.mem_takeWhile_imp hc
  exact of_decide_eq_true hdigit

theorem head?_afterDigits (t : Text) :
    ∀ c, t.afterDigits.head? = some c → c ∉ CharacterSet.decimal :=
  head?_dropWhile_mem CharacterSet.decimal t.unsigned

end Leading

end Text

namespace Grammar

/-- On every text the parser for integers looks at the sign and at the longest row
of digits after it. Without digits it fails where it began, with so many that they
are no longer read it ends the run, and otherwise it outputs what they spell. So it
reads every integer back that can be written, whatever follows that is no digit. -/
theorem run_integer (depth : Nat) :
    (∀ t : Text, (leaf .integer).run depth (.text t) =
      if t.leadingDigits = [] then
        pure (.failure (.text t) (.text "Expected an integer."))
      else if t.leadingDigits.length ≤ Text.maximalDigits then
        pure (.success (.text t.afterDigits)
          (.int (Text.signedValue t.leadingSign t.leadingDigits)))
      else Run.fail .badValue) ∧
    ∀ (n : Int) (tail : Text), (Text.ofNat n.natAbs).length ≤ Text.maximalDigits →
      (∀ c, tail.head? = some c → c ∉ CharacterSet.decimal) →
      (leaf .integer).run depth (.text (Text.ofInt n ++ tail)) =
        pure (.success (.text tail) (.int n)) := by
  rw [run_leaf]
  constructor
  · intro t
    have ht : t.leadingSign ++ (t.leadingDigits ++ t.afterDigits) = t := by
      rw [Text.leadingDigits_append_afterDigits, Text.leadingSign_append_unsigned]
    by_cases hnone : t.leadingDigits = []
    · have hrest : t.leadingSign ++ t.afterDigits = t := by
        rw [hnone] at ht
        exact ht
      have hstart : t.leadingSign = [] → ∀ c, t.afterDigits.head? = some c →
          c ∉ CharacterSet.signs := by
        intro hsign
        rw [hsign, List.nil_append] at hrest
        rw [hrest]
        exact Text.head?_of_leadingSign hsign
      have hrefuses := Rule.integer_text_refuses (Text.sign_leadingSign t)
        (Text.head?_afterDigits t) hstart
      rw [hrest] at hrefuses
      rw [if_pos hnone]
      exact hrefuses
    · have hread := Rule.integer_text (Text.sign_leadingSign t) (Text.decimal_leadingDigits t)
        hnone (Text.head?_afterDigits t)
      rw [if_neg hnone]
      rw [ht] at hread
      exact hread
  · intro n tail hlength htail
    obtain ⟨sign, hwritten, hsign, hvalue⟩ := Text.exists_sign_ofInt n
    have hread := Rule.integer_text hsign (Text.decimal_ofNat n.natAbs)
      (Text.ofNat_ne_nil n.natAbs) htail
    rw [if_pos hlength, hvalue] at hread
    rw [hwritten, List.append_assoc]
    exact hread

theorem run_integer_negative :
    (Text.ofNat (Int.natAbs (-42))).length ≤ Text.maximalDigits ∧
      (∀ c, (" 7" : Text).head? = some c → c ∉ CharacterSet.decimal) ∧
      (leaf .integer).run 0 (.text (Text.ofInt (-42) ++ " 7")) =
        pure (.success (.text " 7") (.int (-42))) := by
  have hlength : (Text.ofNat (Int.natAbs (-42))).length ≤ Text.maximalDigits := by
    have hnumeral : Text.ofNat 42 = "42" := by
      rw [Text.ofNat_of_le (by decide), Text.ofNat_of_lt (by decide)]
      rfl
    show (Text.ofNat 42).length ≤ _
    rw [hnumeral]
    decide
  have htail : ∀ c, (" 7" : Text).head? = some c → c ∉ CharacterSet.decimal :=
    Text.forall_head?_cons (by decide) "7"
  exact ⟨hlength, htail, (run_integer 0).2 (-42) " 7" hlength htail⟩

end Grammar

end ParserCombinators
