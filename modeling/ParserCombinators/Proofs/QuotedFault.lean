import ParserCombinators.Proofs.QuotedString

/-!
What is wrong with a text that is not read as a quoted string. Either it does not
begin with a quote, or its pieces are read one after the other up to a place where
neither a piece nor the quote can be read. That place is the end of the text, an
escape with nothing after it, or an escape that announces a code point without its
digits, and it decides the message.
-/

namespace ParserCombinators

open Run

/-- A text begins with the digits of a code point. -/
def Text.BeginsWithPoint (t : Text) : Prop :=
  ∃ digits u, t = digits ++ u ∧ digits.length = 4 ∧ ∀ d ∈ digits, d ∈ CharacterSet.hexadecimal

/-- What stands where neither a piece of a string nor its quote can be read, with
the message for it. -/
inductive Breaks (quote escape : CodePoint) : Text → Text → Prop
  | unclosed : Breaks quote escape [] ("Expected closing quote \x60" ++ [quote] ++ "\x60.")
  | dangling : Breaks quote escape [escape]
      ("Expected a character to escape after \x60" ++ [escape] ++ "\x60.")
  | malformed {t : Text} (ht : ¬ t.BeginsWithPoint) : Breaks quote escape (escape :: letterU :: t)
      "Expected 4 hexadecimal characters after unicode escape sequence."

/-- The first fault of a text that is no quoted string, as the message for it. -/
inductive Diagnosis (characters : Text) (escape : CodePoint) (escapes : List (Text × Text)) :
    Text → Text → Prop
  | notQuoted {t : Text} (ht : ∀ c, t.head? = some c → c ∉ characters) :
    Diagnosis characters escape escapes t "Expected a quoted string."
  | broken {quote : CodePoint} {ws : List (Text × Text)} {t message : Text}
    (hquote : quote ∈ characters) (hws : ∀ w ∈ ws, Spells quote escape escapes w.1 w.2)
    (ht : Breaks quote escape t message) :
    Diagnosis characters escape escapes (quote :: ((ws.map Prod.fst).flatten ++ t)) message

namespace Rule

variable {quote escape : CodePoint} {escapes : List (Text × Text)} {t message : Text}

theorem unicodeEscape_text_refuses (ht : ¬ t.BeginsWithPoint) :
    ∃ rest, unicodeEscape (.text t) = pure (.failure rest
      (.text "Expected 4 hexadecimal characters after unicode escape sequence.")) :=
  (unicodeEscape_text_cases t).resolve_left ht

theorem NoPiece.not_spells (h : NoPiece quote escape escapes t) {w m u : Text}
    (hw : Spells quote escape escapes w m) : t ≠ w ++ u := by
  rintro rfl
  obtain ⟨e, he⟩ := h.piece
  rw [piece_text hw] at he
  cases pure_injective he

/-- Where neither a piece nor the quote begins, one of three things stands. -/
theorem exists_breaks_of_noPiece (h : NoPiece quote escape escapes t) (hquote : ¬ [quote] <+: t) :
    ∃ message, Breaks quote escape t message := by
  cases t with
  | nil => exact ⟨_, .unclosed⟩
  | cons c t =>
    by_cases hescape : c = escape
    · subst hescape
      cases t with
      | nil => exact ⟨_, .dangling⟩
      | cons d t =>
        by_cases hletter : d = letterU
        · subst hletter
          refine ⟨_, .malformed fun hpoint => ?_⟩
          obtain ⟨digits, u, rfl, hlength, hdigits⟩ := hpoint
          obtain ⟨point, hw⟩ := exists_escapeForm_unicode [c] escapes hlength hdigits
          exact absurd rfl (h.not_spells (.escaped hw.escapeSpells))
        · exact absurd rfl (h.not_spells (.escaped (.replaced hletter)))
    · have hplain : c ≠ quote := by
        rintro rfl
        exact hquote ⟨t, rfl⟩
      exact absurd rfl (h.not_spells (.plain hplain hescape))

/-- At such a place the rule for an escape fails on that side which makes the
closing rule choose the message. -/
theorem escaped_text_of_breaks (h : Breaks quote escape t message)
    (escapes : List (Text × Text)) : ∃ rest side e,
    escaped [escape] escapes (.text t) = pure (.failure rest (.branch side e)) ∧
    (if side = .right then e else
      .text ("Expected closing quote \x60" ++ (Value.text [quote]).display ++ "\x60.")) =
        .text message := by
  cases h with
  | unclosed => exact ⟨_, .left, _, escaped_text_refuses (by simp), rfl⟩
  | dangling => exact ⟨_, .right, _, escaped_text_dangling [escape] escapes, rfl⟩
  | malformed ht =>
    obtain ⟨rest, hrest⟩ := unicodeEscape_text_refuses ht
    exact ⟨rest, .right, _, escaped_of_failure resolveEscape_letterU hrest, rfl⟩

theorem head?_of_breaks (h : Breaks quote escape t message) :
    ∀ c, t.head? = some c → c = escape := by
  intro c hc
  cases h with
  | unclosed => cases hc
  | dangling => exact (Option.some.inj hc).symm
  | malformed => exact (Option.some.inj hc).symm

theorem noPiece_of_breaks (h : Breaks quote escape t message) : NoPiece quote escape escapes t := by
  obtain ⟨_, _, _, hescaped, -⟩ := escaped_text_of_breaks h escapes
  have hplain : plainElement (.text [quote]) [escape] (.text t) =
      pure (.failure (.text t) (.text "Expected a character.")) := by
    cases t with
    | nil => rfl
    | cons c t =>
      have hc : c = escape := head?_of_breaks h c rfl
      exact plainElement_text_refuses (.inr (by rw [hc])) t
  exact noPiece_of_failures hescaped hplain

theorem unquoted_text_breaks {ws : List (Text × Text)} (hquote : quote ≠ escape)
    (hws : ∀ w ∈ ws, Spells quote escape escapes w.1 w.2) (h : Breaks quote escape t message) :
    unquoted quote escape escapes (.text ((ws.map Prod.fst).flatten ++ t)) =
      pure (.failure (.text t) (.text message)) := by
  obtain ⟨rest, side, e, hescaped, hmessage⟩ := escaped_text_of_breaks h escapes
  have hnot : ¬ [quote] <+: t := by
    rintro ⟨u, rfl⟩
    exact hquote (head?_of_breaks h quote rfl)
  rw [unquoted_text_refuses hws (noPiece_of_breaks h) hnot hescaped, hmessage]

end Rule

namespace Grammar

variable {quotes : Value} {characters : Text} {escape : CodePoint}

theorem quotedString_text_of_diagnosis (hquotes : quotes.HoldsCharacters characters)
    (hescape : escape ∉ characters) {escapes : List (Text × Text)} {input message : Text}
    (h : Diagnosis characters escape escapes input message) :
    Rule.quotedString quotes [escape] escapes (.text input) =
      pure (.failure (.text input) (.text message)) := by
  cases h with
  | notQuoted ht => exact Rule.quotedString_text_refuses hquotes ht
  | @broken quote ws t message hquote hws ht =>
    have hne : quote ≠ escape := fun heq => hescape (heq ▸ hquote)
    exact Rule.quotedString_text_of_failure (hquotes.contains_of_mem hquote)
      (Rule.unquoted_text_breaks hne hws ht)

/-- A text is read as a quoted string, or it has a fault. -/
theorem quotedString_text_cases (hquotes : quotes.HoldsCharacters characters)
    (hescape : escape ∉ characters) (escapes : List (Text × Text)) (input : Text) :
    (∃ rest v, Rule.quotedString quotes [escape] escapes (.text input) =
      pure (.success rest v)) ∨ ∃ message, Diagnosis characters escape escapes input message := by
  by_cases hopening : ∃ quote t, input = quote :: t ∧ quote ∈ characters
  · obtain ⟨quote, t, rfl, hquote⟩ := hopening
    obtain ⟨ws, u, rfl, hws, hstop⟩ := Rule.exists_pieces quote escape escapes t
    by_cases hclosing : [quote] <+: u
    · obtain ⟨v, rfl⟩ := hclosing
      exact .inl ⟨_, _, Rule.quotedString_text hquotes hquote hescape hws v⟩
    · obtain ⟨message, hbreaks⟩ := Rule.exists_breaks_of_noPiece hstop hclosing
      exact .inr ⟨message, .broken hquote hws hbreaks⟩
  · refine .inr ⟨_, .notQuoted fun c hc hmem => ?_⟩
    obtain ⟨t, rfl⟩ := List.head?_eq_some_iff.mp hc
    exact hopening ⟨c, t, rfl, hmem⟩

/-- A text that is not read as a quoted string fails as a whole, with the message
for its first fault. Every such text has a fault, and only one. -/
theorem run_quotedString_diagnoses (hquotes : quotes.HoldsCharacters characters)
    (hescape : escape ∉ characters) (escapes : List (Text × Text)) (depth : Nat) (input : Text) :
    ((∃ rest v, (leaf (.quotedString quotes [escape] escapes)).run depth (.text input) =
        pure (.success rest v)) ∨
      ∃ message, Diagnosis characters escape escapes input message) ∧
    ∀ message, Diagnosis characters escape escapes input message →
      (leaf (.quotedString quotes [escape] escapes)).run depth (.text input) =
        pure (.failure (.text input) (.text message)) := by
  rw [run_leaf]
  exact ⟨quotedString_text_cases hquotes hescape escapes input,
    fun message h => quotedString_text_of_diagnosis hquotes hescape h⟩

/-- After a good piece an escape announces a code point, and the third of its four
characters is no digit. -/
theorem run_quotedString_diagnoses_badPoint :
    Rule.generalQuotes.HoldsCharacters [.doubleQuote, .singleQuote] ∧
      CodePoint.backslash ∉ [CodePoint.doubleQuote, .singleQuote] ∧
      Diagnosis [.doubleQuote, .singleQuote] .backslash CharacterSet.generalEscapes
        "'a\\u12G4'" "Expected 4 hexadecimal characters after unicode escape sequence." ∧
      (leaf (.quotedString Rule.generalQuotes [.backslash] CharacterSet.generalEscapes)).run 0
          (.text "'a\\u12G4'") =
        pure (.failure (.text "'a\\u12G4'")
          (.text "Expected 4 hexadecimal characters after unicode escape sequence.")) := by
  have hquotes : Rule.generalQuotes.HoldsCharacters [.doubleQuote, .singleQuote] := .inr (.inr rfl)
  have hescape : CodePoint.backslash ∉ [CodePoint.doubleQuote, .singleQuote] := by decide
  have hplain : Spells .singleQuote .backslash CharacterSet.generalEscapes "a" "a" :=
    .plain (by decide) (by decide)
  have hpoint : ¬ Text.BeginsWithPoint "12G4'" := by
    rintro ⟨digits, u, ht, hlength, hdigits⟩
    have htake := congrArg (List.take 4) ht
    rw [List.take_left' hlength] at htake
    exact absurd (hdigits (.ofChar 'G') (htake ▸ by decide)) (by decide)
  have hfault : Diagnosis [.doubleQuote, .singleQuote] .backslash CharacterSet.generalEscapes
      "'a\\u12G4'" "Expected 4 hexadecimal characters after unicode escape sequence." :=
    @Diagnosis.broken _ _ _ .singleQuote [("a", "a")] _ _ (by decide)
      (List.forall_mem_singleton.mpr hplain) (.malformed hpoint)
  exact ⟨hquotes, hescape, hfault, (run_quotedString_diagnoses hquotes hescape
    CharacterSet.generalEscapes 0 _).2 _ hfault⟩

end Grammar

end ParserCombinators
