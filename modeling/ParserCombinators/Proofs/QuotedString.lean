import Mathlib.Data.List.Induction
import Mathlib.Tactic.SplitIfs
import ParserCombinators.Proofs.Grammar.Borrow
import ParserCombinators.Proofs.Rule.Structure
import ParserCombinators.Proofs.Rule.Text

/-!
The language of quoted strings. Between two equal quotes stand pieces, each of
which has a meaning: a character other than the quote and the escape means
itself, and one after the escape means its replacement, or the code point that
four hexadecimal digits spell. A string is read exactly if it is spelled so,
and its output is what the pieces mean, end to end.
-/

namespace ParserCombinators

open Run

namespace CodePoint

theorem digit?_lt (c : CodePoint) : c.digit?.getD 0 < 16 := by
  unfold digit?
  split_ifs
  all_goals
    simp only [Option.getD_some, Option.getD_none]
    omega

end CodePoint

/-- A row of digits in base sixteen is below the power of its length. -/
theorem Text.numeralValue_lt (digits : Text) :
    numeralValue 16 digits < Nat.pow 16 digits.length := by
  induction digits using List.reverseRecOn with
  | nil => decide
  | append_singleton digits c ih =>
    have hc := c.digit?_lt
    have hstep : numeralValue 16 (digits ++ [c]) = 16 * numeralValue 16 digits + c.digit?.getD 0 := by
      simp [numeralValue]
    have hpower : Nat.pow 16 (digits ++ [c]).length = Nat.pow 16 digits.length * 16 := by
      rw [List.length_append, List.length_singleton]
      rfl
    omega

/-- The letter that announces the digits of a code point. -/
def letterU : CodePoint := .ofChar 'u'

/-- The pieces that begin with the escape and what they mean. -/
inductive EscapeSpells (escape : CodePoint) (escapes : List (Text × Text)) : Text → Text → Prop
  | replaced {c : CodePoint} (hc : c ≠ letterU) :
    EscapeSpells escape escapes [escape, c] ((escapes.lookup [c]).getD [c])
  | unicode {digits : Text} {c : CodePoint} (hlength : digits.length = 4)
    (hdigits : ∀ d ∈ digits, d ∈ CharacterSet.hexadecimal)
    (hc : c.val = Text.numeralValue 16 digits) :
    EscapeSpells escape escapes (escape :: letterU :: digits) [c]

/-- Escapes that begin with a text of any length and what they mean. -/
inductive EscapeForm (mark : Text) (escapes : List (Text × Text)) : Text → Text → Prop
  | replaced {c : CodePoint} (hc : c ≠ letterU) :
    EscapeForm mark escapes (mark ++ [c]) ((escapes.lookup [c]).getD [c])
  | unicode {digits : Text} {c : CodePoint} (hlength : digits.length = 4)
    (hdigits : ∀ d ∈ digits, d ∈ CharacterSet.hexadecimal)
    (hc : c.val = Text.numeralValue 16 digits) :
    EscapeForm mark escapes (mark ++ letterU :: digits) [c]

theorem EscapeSpells.escapeForm {escape : CodePoint} {escapes : List (Text × Text)} {w m : Text}
    (h : EscapeSpells escape escapes w m) : EscapeForm [escape] escapes w m := by
  cases h with
  | replaced hc => exact .replaced hc
  | unicode hlength hdigits hc => exact .unicode hlength hdigits hc

theorem EscapeForm.escapeSpells {escape : CodePoint} {escapes : List (Text × Text)} {w m : Text}
    (h : EscapeForm [escape] escapes w m) : EscapeSpells escape escapes w m := by
  cases h with
  | replaced hc => exact .replaced hc
  | unicode hlength hdigits hc => exact .unicode hlength hdigits hc

/-- The pieces of a string and what they mean. -/
inductive Spells (quote escape : CodePoint) (escapes : List (Text × Text)) : Text → Text → Prop
  | plain {c : CodePoint} (hquote : c ≠ quote) (hescape : c ≠ escape) :
    Spells quote escape escapes [c] [c]
  | escaped {w m : Text} (h : EscapeSpells escape escapes w m) : Spells quote escape escapes w m

/-- Four hexadecimal digits are never too large for a code point. -/
theorem exists_escapeForm_unicode (mark : Text) (escapes : List (Text × Text))
    {digits : Text} (hlength : digits.length = 4)
    (hdigits : ∀ d ∈ digits, d ∈ CharacterSet.hexadecimal) :
    ∃ c, EscapeForm mark escapes (mark ++ letterU :: digits) [c] := by
  have hpoint : Text.numeralValue 16 digits < 0x110000 := by
    have hlt := Text.numeralValue_lt digits
    rw [hlength] at hlt
    exact Nat.lt_trans hlt (by decide)
  exact ⟨_, .unicode hlength hdigits (CodePoint.val_ofNat hpoint)⟩

theorem EscapeForm.ne_nil {mark : Text} {escapes : List (Text × Text)} {w m : Text}
    (h : EscapeForm mark escapes w m) : w ≠ [] := by
  cases h <;> simp

theorem Spells.ne_nil {quote escape : CodePoint} {escapes : List (Text × Text)} {w m : Text}
    (h : Spells quote escape escapes w m) : w ≠ [] := by
  cases h with
  | plain => exact List.cons_ne_nil _ _
  | escaped h => exact h.escapeForm.ne_nil

/-- The pieces of a text that is spelled one character at a time. -/
theorem exists_pieces_of_characters {quote escape : CodePoint} {escapes : List (Text × Text)}
    {t : Text} {spellings : List Text}
    (h : List.Forall₂ (fun c w => Spells quote escape escapes w [c]) t spellings) :
    ∃ ws : List (Text × Text), (∀ w ∈ ws, Spells quote escape escapes w.1 w.2) ∧
      ws.map Prod.fst = spellings ∧ (ws.map Prod.snd).flatten = t := by
  induction h with
  | nil => exact ⟨[], nofun, rfl, rfl⟩
  | @cons c w t spellings hw _ ih =>
    obtain ⟨ws, hws, rfl, rfl⟩ := ih
    exact ⟨(w, [c]) :: ws, List.forall_mem_cons.mpr ⟨hw, hws⟩, rfl, rfl⟩

/-- A text, a list or a tuple of the given characters. -/
def Value.HoldsCharacters (v : Value) (characters : Text) : Prop :=
  v = .text characters ∨ v = .list (characters.map fun c => .text [c]) ∨
    v = .tuple (characters.map fun c => .text [c])

theorem Text.isWithin_singleton (c : CodePoint) (t : Text) : Text.isWithin [c] t = decide (c ∈ t) := by
  induction t with
  | nil => rfl
  | cons d t ih =>
    rw [Text.isWithin, ih]
    by_cases h : c = d
    · simp [h]
    · simp [h]

namespace Value

theorem HoldsCharacters.contains {v : Value} {characters : Text} (h : v.HoldsCharacters characters)
    (c : CodePoint) : v.contains (.text [c]) = pure (decide (c ∈ characters)) := by
  have hany : (characters.map fun d => text [d]).any (equals (.text [c])) =
      decide (c ∈ characters) := by
    rw [List.any_map, Bool.eq_iff_iff]
    simp [equals]
  rcases h with rfl | rfl | rfl
  · exact congrArg pure (Text.isWithin_singleton c characters)
  · exact congrArg pure hany
  · exact congrArg pure hany

theorem HoldsCharacters.contains_of_mem {v : Value} {characters : Text}
    (h : v.HoldsCharacters characters) {c : CodePoint} (hc : c ∈ characters) :
    v.contains (.text [c]) = pure true := by
  rw [h.contains, decide_eq_true hc]

end Value

namespace Rule

variable {quote escape : CodePoint} {escapes : List (Text × Text)}

theorem unicodeEscape_text {digits : Text} {c : CodePoint} (hlength : digits.length = 4)
    (hdigits : ∀ d ∈ digits, d ∈ CharacterSet.hexadecimal)
    (hc : c.val = Text.numeralValue 16 digits) (t : Text) :
    unicodeEscape (.text (digits ++ t)) = pure (.success (.text t) (.text [c])) := by
  have hpoint : CodePoint.ofNat (Text.numeralValue 16 digits) = c := by
    ext
    rw [← hc, CodePoint.val_ofNat c.lt]
  rw [unicodeEscape, map, exactly_characterOf_text hlength hdigits]
  simp only [pure_bind, Value.isTrue_success, if_true, Value.rest_success, Value.output_success,
    spelledCharacter, Value.join_characters, hpoint, accept]

theorem unicodeEscape_text_cases (t : Text) :
    (∃ digits u, t = digits ++ u ∧ digits.length = 4 ∧
        ∀ d ∈ digits, d ∈ CharacterSet.hexadecimal) ∨
      ∃ rest, unicodeEscape (.text t) = pure (.failure rest
        (.text "Expected 4 hexadecimal characters after unicode escape sequence.")) := by
  have hcases := exactlyFrom_characterOf_text_cases CharacterSet.hexadecimal
    "Expected a hexadecimal digit."
    (.text "Expected 4 hexadecimal characters after unicode escape sequence.") 4 [] t
  exact hcases.imp_right fun ⟨rest, hrest⟩ => ⟨rest, map_of_failure hrest⟩

theorem resolveEscape_letterU : resolveEscape escapes (.text [letterU]) = pure unicodeEscape := by
  have hequal : (Value.text [letterU]).equals (.text "u") = true := by decide
  rw [resolveEscape, if_pos hequal]

theorem resolveEscape_of_ne {c : CodePoint} (hc : c ≠ letterU) :
    resolveEscape escapes (.text [c]) = pure (always (.text ((escapes.lookup [c]).getD [c]))) := by
  have hequal : ¬ (Value.text [c]).equals (.text "u") = true := by
    show ¬ ([c] == [letterU]) = true
    simpa using hc
  rw [resolveEscape, if_neg hequal]
  rfl

section Escaped

variable {mark : Text} {c : CodePoint} {q : Rule} {t : Text} {rest v e : Value}

theorem escaped_of_success (hq : resolveEscape escapes (.text [c]) = pure q)
    (h : q (.text t) = pure (.success rest v)) :
    escaped mark escapes (.text (mark ++ c :: t)) = pure (.success rest v) := by
  rw [escaped, second, map, seq, literal_text_append]
  simp [andThen, anything_text_cons, hq, h, accept, Value.item_one_pair]

theorem escaped_of_failure (hq : resolveEscape escapes (.text [c]) = pure q)
    (h : q (.text t) = pure (.failure rest e)) :
    escaped mark escapes (.text (mark ++ c :: t)) =
      pure (.failure rest (.branch .right e)) := by
  rw [escaped, second, map, seq, literal_text_append]
  simp [andThen, anything_text_cons, hq, h, reject]

/-- Nothing is left to escape. -/
theorem escaped_text_dangling (mark : Text) (escapes : List (Text × Text)) :
    escaped mark escapes (.text mark) = pure (.failure (.text []) (.branch .right
      (.text ("Expected a character to escape after \x60" ++ mark ++ "\x60.")))) := by
  have hmark : ∀ error, literal (.text mark) error (.text mark) =
      pure (.success (.text []) (.text mark)) := by
    intro error
    have happend : literal (.text mark) error (.text (mark ++ [])) =
        pure (.success (.text []) (.text mark)) := literal_text_append mark []
    rwa [List.append_nil] at happend
  rw [escaped, second, map, seq, hmark]
  rfl

theorem escaped_text_refuses (h : ¬ mark <+: t) : escaped mark escapes (.text t) =
    pure (.failure (.text t) (.branch .left (expected (.text mark)))) := by
  rw [escaped, second, map, seq, literal_text_refuses h]
  rfl

theorem escaped_text {w m : Text} (h : EscapeForm mark escapes w m) (t : Text) :
    escaped mark escapes (.text (w ++ t)) = pure (.success (.text t) (.text m)) := by
  cases h with
  | replaced hc =>
    rw [List.append_assoc]
    exact escaped_of_success (resolveEscape_of_ne hc) rfl
  | unicode hlength hdigits hc =>
    rw [List.append_assoc]
    exact escaped_of_success resolveEscape_letterU (unicodeEscape_text hlength hdigits hc t)

/-- A text that does not begin with such a piece is refused, at one of the two
parts of the rule. -/
theorem escaped_text_cases (mark : Text) (escapes : List (Text × Text)) (t : Text) :
    (∃ w m u, EscapeForm mark escapes w m ∧ t = w ++ u) ∨
      ∃ rest side e, escaped mark escapes (.text t) = pure (.failure rest (.branch side e)) := by
  by_cases hmark : mark <+: t
  · obtain ⟨u, rfl⟩ := hmark
    cases u with
    | nil =>
      rw [List.append_nil]
      exact .inr ⟨_, _, _, escaped_text_dangling mark escapes⟩
    | cons c u =>
      by_cases hc : c = letterU
      · subst hc
        obtain ⟨digits, v, rfl, hlength, hdigits⟩ | ⟨rest, hrest⟩ := unicodeEscape_text_cases u
        · obtain ⟨point, hpoint⟩ := exists_escapeForm_unicode mark escapes hlength hdigits
          exact .inl ⟨_, _, v, hpoint, by simp⟩
        · exact .inr ⟨rest, .right, _, escaped_of_failure resolveEscape_letterU hrest⟩
      · exact .inl ⟨_, _, u, .replaced hc, by simp⟩
  · exact .inr ⟨_, _, _, escaped_text_refuses hmark⟩

end Escaped

/-- One piece of a string in which escapes begin with a text of any length. -/
def anyPiece (quote : CodePoint) (mark : Text) (escapes : List (Text × Text)) : Rule :=
  ((escaped mark escapes).alt (plainElement (.text [quote]) mark)).map Value.foldBranch

/-- One piece of a string. -/
def piece (quote escape : CodePoint) (escapes : List (Text × Text)) : Rule :=
  ((escaped [escape] escapes).alt (plainElement (.text [quote]) [escape])).map Value.foldBranch

section PlainElement

variable {mark : Text} {c : CodePoint}

theorem plainElement_text_cons (hquote : c ≠ quote) (hmark : [c] ≠ mark) (t : Text) :
    plainElement (.text [quote]) mark (.text (c :: t)) =
      pure (.success (.text t) (.text [c])) := by
  have hdiffers : (Value.text [c]).equals (.text mark) = false := beq_eq_false_iff_ne.mpr hmark
  exact element_text_cons (by simp [Value.equals_character, hquote, hdiffers]) t

theorem plainElement_text_refuses (h : c = quote ∨ [c] = mark) (t : Text) :
    plainElement (.text [quote]) mark (.text (c :: t)) =
      pure (.failure (.text (c :: t)) (.text "Expected a character.")) := by
  refine element_text_refuses ?_ t
  rcases h with rfl | rfl
  · simp [Value.equals_character]
  · simp [Value.equals_character]

end PlainElement

theorem piece_text {w m : Text} (h : Spells quote escape escapes w m) (t : Text) :
    piece quote escape escapes (.text (w ++ t)) = pure (.success (.text t) (.text m)) := by
  cases h with
  | @plain c hquote hescape =>
    have hrefuses : ¬ [escape] <+: c :: t := by
      simpa using hescape.symm
    have hmark : [c] ≠ [escape] := fun heq => hescape (List.cons.inj heq).1
    exact foldedAlt_right (escaped_text_refuses hrefuses) (plainElement_text_cons hquote hmark t)
  | escaped h => exact foldedAlt_left (escaped_text h.escapeForm t)

/-- The rule for a piece refuses a text, in both of its parts. -/
structure NoPiece (quote escape : CodePoint) (escapes : List (Text × Text)) (t : Text) : Prop where
  escaped : ∃ rest side e, escaped [escape] escapes (.text t) = pure (.failure rest (.branch side e))
  piece : ∃ e, piece quote escape escapes (.text t) = pure (.failure (.text t) e)

theorem noPiece_of_failures {t : Text} {rest e d : Value} {side : Side}
    (hescaped : Rule.escaped [escape] escapes (.text t) = pure (.failure rest (.branch side e)))
    (hplain : plainElement (.text [quote]) [escape] (.text t) = pure (.failure (.text t) d)) :
    NoPiece quote escape escapes t :=
  ⟨⟨rest, side, e, hescaped⟩, _, foldedAlt_refuses hescaped hplain⟩

theorem piece_text_cases (quote escape : CodePoint) (escapes : List (Text × Text)) (t : Text) :
    (∃ w m u, Spells quote escape escapes w m ∧ t = w ++ u) ∨ NoPiece quote escape escapes t := by
  obtain ⟨w, m, u, h, rfl⟩ | ⟨rest, side, e, hescaped⟩ :=
    escaped_text_cases [escape] escapes t
  · exact .inl ⟨w, m, u, .escaped h.escapeSpells, rfl⟩
  cases t with
  | nil => exact .inr (noPiece_of_failures hescaped element_text_nil)
  | cons c t =>
    by_cases hplain : c = quote ∨ [c] = [escape]
    · exact .inr (noPiece_of_failures hescaped (plainElement_text_refuses hplain t))
    · obtain ⟨hquote, hescape⟩ := not_or.mp hplain
      exact .inl ⟨[c], [c], t, .plain hquote fun heq => hescape (heq ▸ rfl), rfl⟩

/-- Any text is a row of pieces and something at which no piece begins. -/
theorem exists_pieces (quote escape : CodePoint) (escapes : List (Text × Text)) (t : Text) :
    ∃ (ws : List (Text × Text)) (u : Text), t = (ws.map Prod.fst).flatten ++ u ∧
      (∀ w ∈ ws, Spells quote escape escapes w.1 w.2) ∧ NoPiece quote escape escapes u := by
  obtain ⟨w, m, u, h, ht⟩ | hrefuses := piece_text_cases quote escape escapes t
  · have hshorter : u.length < t.length := by
      have hpos := List.length_pos_iff.mpr h.ne_nil
      rw [ht, List.length_append]
      omega
    obtain ⟨ws, v, hu, hws, hv⟩ := exists_pieces quote escape escapes u
    refine ⟨(w, m) :: ws, v, ?_, List.forall_mem_cons.mpr ⟨h, hws⟩, hv⟩
    rw [ht, hu, List.map_cons, List.flatten_cons, List.append_assoc]
  · exact ⟨[], t, rfl, nofun, hrefuses⟩
termination_by t.length

section Closing

variable {mark t : Text}

/-- At the closing quote no escape is tried. -/
theorem closing_text (t : Text) : closing (.text [quote]) mark escapes (.text (quote :: t)) =
    pure (.success (.text t) (.branch .left (.text [quote]))) := by
  rw [closing, mapError, alt, literal_character]
  simp [accept]

/-- The error is that of an escape which has begun there, if one has. -/
theorem closing_text_refuses {rest e : Value} {side : Side} (h : ¬ [quote] <+: t)
    (hescaped : escaped mark escapes (.text t) = pure (.failure rest (.branch side e))) :
    closing (.text [quote]) mark escapes (.text t) =
      pure (.failure (.text t) (if side = .right then e else
        .text ("Expected closing quote \x60" ++ (Value.text [quote]).display ++ "\x60."))) := by
  rw [closing, mapError, alt, literal_text_refuses h]
  simp only [pure_bind, Value.isTrue_failure, Bool.false_eq_true, if_false, hescaped,
    Value.error_failure, Value.rest_failure, reject, closingError, Value.item_one_pair, Value.side]
  by_cases hside : side = .right
  · simp [hside, Value.output]
  · simp [hside, Value.item_zero_pair]

/-- What follows the opening quote, where escapes begin with a text of any length. -/
def afterQuote (quote : CodePoint) (mark : Text) (escapes : List (Text × Text)) : Rule :=
  (anyPiece quote mark escapes).manyJoined.skip (closing (.text [quote]) mark escapes)

/-- Pieces up to the quote. -/
theorem afterQuote_text {ms : List Text} {u : Text} {e : Value}
    (hread : Reads (anyPiece quote mark escapes) t ms (quote :: u))
    (hstop : anyPiece quote mark escapes (.text (quote :: u)) =
      pure (.failure (.text (quote :: u)) e)) :
    afterQuote quote mark escapes (.text t) =
      pure (.success (.text u) (.text ms.flatten)) := by
  have hpieces := manyJoined_reads hread hstop
  exact skip_of_success hpieces (closing_text u)

/-- Pieces up to a place where the quote is missing. -/
theorem afterQuote_text_refuses {ms : List Text} {u : Text} {rest d e : Value} {side : Side}
    (hread : Reads (anyPiece quote mark escapes) t ms u)
    (hstop : anyPiece quote mark escapes (.text u) = pure (.failure (.text u) d))
    (hquote : ¬ [quote] <+: u)
    (hescaped : escaped mark escapes (.text u) = pure (.failure rest (.branch side e))) :
    afterQuote quote mark escapes (.text t) =
      pure (.failure (.text u) (if side = .right then e else
        .text ("Expected closing quote \x60" ++ (Value.text [quote]).display ++ "\x60."))) := by
  have hpieces := manyJoined_reads hread hstop
  exact skip_of_right hpieces (closing_text_refuses hquote hescaped)

end Closing

/-- At the quote no piece begins. -/
theorem noPiece_quote (h : quote ≠ escape) (escapes : List (Text × Text)) (t : Text) :
    NoPiece quote escape escapes (quote :: t) := by
  obtain ⟨w, m, u, hw, ht⟩ | hrefuses := piece_text_cases quote escape escapes (quote :: t)
  · cases hw with
    | plain hquote => exact absurd (List.cons.inj ht).1.symm hquote
    | escaped hw =>
      cases hw with
      | replaced => exact absurd (List.cons.inj ht).1 h
      | unicode => exact absurd (List.cons.inj ht).1 h
  · exact hrefuses

/-- What follows the opening quote. -/
def unquoted (quote escape : CodePoint) (escapes : List (Text × Text)) : Rule :=
  (piece quote escape escapes).manyJoined.skip (closing (.text [quote]) [escape] escapes)

section Strings

variable {ws : List (Text × Text)} {t : Text}

theorem reads_spelled (hws : ∀ w ∈ ws, Spells quote escape escapes w.1 w.2) (t : Text) :
    Reads (piece quote escape escapes) ((ws.map Prod.fst).flatten ++ t) (ws.map Prod.snd) t :=
  reads_pieces (fun w hw => (hws w hw).ne_nil) (fun w hw => piece_text (hws w hw)) t

theorem unquoted_text (hws : ∀ w ∈ ws, Spells quote escape escapes w.1 w.2)
    (hquote : quote ≠ escape) (t : Text) :
    unquoted quote escape escapes (.text ((ws.map Prod.fst).flatten ++ quote :: t)) =
      pure (.success (.text t) (.text (ws.map Prod.snd).flatten)) := by
  obtain ⟨e, he⟩ := (noPiece_quote hquote escapes t).piece
  exact afterQuote_text (reads_spelled hws (quote :: t)) he

theorem unquoted_text_refuses {rest e : Value} {side : Side}
    (hws : ∀ w ∈ ws, Spells quote escape escapes w.1 w.2) (hstop : NoPiece quote escape escapes t)
    (h : ¬ [quote] <+: t)
    (hescaped : escaped [escape] escapes (.text t) = pure (.failure rest (.branch side e))) :
    unquoted quote escape escapes (.text ((ws.map Prod.fst).flatten ++ t)) =
      pure (.failure (.text t) (if side = .right then e else
        .text ("Expected closing quote \x60" ++ (Value.text [quote]).display ++ "\x60."))) := by
  obtain ⟨d, hd⟩ := hstop.piece
  exact afterQuote_text_refuses (reads_spelled hws t) hd h hescaped

variable {quotes : Value} {characters : Text}

theorem quotedString_text_cons {mark : Text} (hquote : quotes.contains (.text [quote]) = pure true)
    (t : Text) : quotedString quotes mark escapes (.text (quote :: t)) = (do
      let r ← afterQuote quote mark escapes (.text t)
      if r.isTrue then pure r
      else
        let e ← r.error
        reject (.text (quote :: t)) e) := by
  have hopening : ∀ error, element (fun c => quotes.contains c) error (.text (quote :: t)) =
      pure (.success (.text t) (.text [quote])) := fun error => element_text_cons hquote t
  rw [quotedString, backtrack, andThen, hopening]
  rfl

theorem quotedString_text_of_success {mark : Text} {rest v : Value}
    (hquote : quotes.contains (.text [quote]) = pure true)
    (h : afterQuote quote mark escapes (.text t) = pure (.success rest v)) :
    quotedString quotes mark escapes (.text (quote :: t)) = pure (.success rest v) := by
  rw [quotedString_text_cons hquote, h]
  rfl

theorem quotedString_text_of_failure {mark : Text} {rest e : Value}
    (hquote : quotes.contains (.text [quote]) = pure true)
    (h : afterQuote quote mark escapes (.text t) = pure (.failure rest e)) :
    quotedString quotes mark escapes (.text (quote :: t)) =
      pure (.failure (.text (quote :: t)) e) := by
  rw [quotedString_text_cons hquote, h]
  rfl

theorem quotedString_text_refuses (hquotes : quotes.HoldsCharacters characters)
    (h : ∀ c, t.head? = some c → c ∉ characters) :
    quotedString quotes [escape] escapes (.text t) =
      pure (.failure (.text t) (.text "Expected a quoted string.")) := by
  have hopening : ∀ error, element (fun c => quotes.contains c) error (.text t) =
      pure (.failure (.text t) error) := by
    intro error
    cases t with
    | nil => rfl
    | cons c t =>
      refine element_text_refuses ?_ t
      rw [hquotes.contains, decide_eq_false (h c rfl)]
  rw [quotedString, backtrack, andThen, hopening]
  rfl

theorem quotedString_text (hquotes : quotes.HoldsCharacters characters)
    (hquote : quote ∈ characters) (hescape : escape ∉ characters)
    (hws : ∀ w ∈ ws, Spells quote escape escapes w.1 w.2) (t : Text) :
    quotedString quotes [escape] escapes
        (.text (quote :: ((ws.map Prod.fst).flatten ++ quote :: t))) =
      pure (.success (.text t) (.text (ws.map Prod.snd).flatten)) := by
  have hne : quote ≠ escape := fun heq => hescape (heq ▸ hquote)
  exact quotedString_text_of_success (hquotes.contains_of_mem hquote) (unquoted_text hws hne t)

/-- A text that is read begins with a quote, and the pieces after it can only
stop at the same quote. -/
theorem exists_pieces_of_quotedString (hquotes : quotes.HoldsCharacters characters)
    (hescape : escape ∉ characters) {input : Text} {rest v : Value}
    (h : quotedString quotes [escape] escapes (.text input) = pure (.success rest v)) :
    ∃ quote ∈ characters, ∃ (ws : List (Text × Text)) (t : Text),
      (∀ w ∈ ws, Spells quote escape escapes w.1 w.2) ∧
      input = quote :: ((ws.map Prod.fst).flatten ++ quote :: t) ∧ rest = .text t ∧
      v = .text (ws.map Prod.snd).flatten := by
  by_cases hopening : ∃ quote t, input = quote :: t ∧ quote ∈ characters
  · obtain ⟨quote, t, rfl, hquote⟩ := hopening
    obtain ⟨ws, u, rfl, hws, hstop⟩ := exists_pieces quote escape escapes t
    by_cases hclosing : [quote] <+: u
    · obtain ⟨t, rfl⟩ := hclosing
      have hread := quotedString_text hquotes hquote hescape hws t
      obtain ⟨rfl, rfl⟩ := Value.success.inj (pure_injective (h.symm.trans hread))
      exact ⟨quote, hquote, ws, t, hws, rfl, rfl, rfl⟩
    · obtain ⟨_, _, _, hescaped⟩ := hstop.escaped
      have hbroken := unquoted_text_refuses hws hstop hclosing hescaped
      rw [quotedString_text_of_failure (hquotes.contains_of_mem hquote) hbroken] at h
      cases pure_injective h
  · have hrefuses : ∀ c, input.head? = some c → c ∉ characters := by
      intro c hc hmem
      obtain ⟨t, rfl⟩ := List.head?_eq_some_iff.mp hc
      exact hopening ⟨c, t, rfl, hmem⟩
    rw [quotedString_text_refuses hquotes hrefuses] at h
    cases pure_injective h

end Strings

end Rule

namespace Grammar

/-- Exactly the texts that are spelled as a quoted string are read as one, with
the meaning of the pieces as the output. So a text whose characters are spelled
one by one is read as itself, whatever follows. -/
theorem run_quotedString_iff {quotes : Value} {characters : Text} {escape : CodePoint}
    (hquotes : quotes.HoldsCharacters characters) (hescape : escape ∉ characters)
    (escapes : List (Text × Text)) (depth : Nat) :
    (∀ (input : Text) (rest v : Value),
      (leaf (.quotedString quotes [escape] escapes)).run depth (.text input) =
          pure (.success rest v) ↔
        ∃ quote ∈ characters, ∃ (ws : List (Text × Text)) (t : Text),
          (∀ w ∈ ws, Spells quote escape escapes w.1 w.2) ∧
          input = quote :: ((ws.map Prod.fst).flatten ++ quote :: t) ∧ rest = .text t ∧
          v = .text (ws.map Prod.snd).flatten) ∧
    ∀ quote ∈ characters, ∀ (s : Text) (spellings : List Text),
      List.Forall₂ (fun c w => Spells quote escape escapes w [c]) s spellings →
      ∀ tail : Text, (leaf (.quotedString quotes [escape] escapes)).run depth
          (.text (quote :: (spellings.flatten ++ quote :: tail))) =
        pure (.success (.text tail) (.text s)) := by
  rw [run_leaf]
  refine ⟨fun input rest v => ⟨Rule.exists_pieces_of_quotedString hquotes hescape, ?_⟩, ?_⟩
  · rintro ⟨quote, hquote, ws, t, hws, rfl, rfl, rfl⟩
    exact Rule.quotedString_text hquotes hquote hescape hws t
  · intro quote hquote s spellings hspells tail
    obtain ⟨ws, hws, rfl, rfl⟩ := exists_pieces_of_characters hspells
    exact Rule.quotedString_text hquotes hquote hescape hws tail

/-- A string between single quotes with a plain character, a line feed and a
letter that is spelled by its code point. -/
theorem run_quotedString_iff_threePieces :
    Rule.generalQuotes.HoldsCharacters [.doubleQuote, .singleQuote] ∧
      CodePoint.backslash ∉ [CodePoint.doubleQuote, .singleQuote] ∧
      (leaf (.quotedString Rule.generalQuotes [.backslash] CharacterSet.generalEscapes)).run 0
          (.text "'a\\n\\u00E9' b") =
        pure (.success (.text " b") (.text [.ofChar 'a', .newline, .ofNat 0xe9])) := by
  have hquotes : Rule.generalQuotes.HoldsCharacters [.doubleQuote, .singleQuote] := .inr (.inr rfl)
  have hescape : CodePoint.backslash ∉ [CodePoint.doubleQuote, .singleQuote] := by decide
  have hplain : Spells .singleQuote .backslash CharacterSet.generalEscapes "a" "a" :=
    .plain (by decide) (by decide)
  have hfeed : Spells .singleQuote .backslash CharacterSet.generalEscapes "\\n" [.newline] :=
    .escaped (.replaced (c := .ofChar 'n') (by decide))
  have hpoint : Spells .singleQuote .backslash CharacterSet.generalEscapes "\\u00E9" [.ofNat 0xe9] :=
    .escaped (.unicode rfl (by decide) (by decide))
  refine ⟨hquotes, hescape, ?_⟩
  refine ((run_quotedString_iff hquotes hescape CharacterSet.generalEscapes 0).1 _ _ _).mpr
    ⟨.singleQuote, by simp, [("a", "a"), ("\\n", [.newline]), ("\\u00E9", [.ofNat 0xe9])], " b",
      ?_, rfl, rfl, rfl⟩
  simpa using ⟨hplain, hfeed, hpoint⟩

end Grammar

end ParserCombinators
