import ParserCombinators.Proofs.Grammar.Borrow
import ParserCombinators.Proofs.QuotedString
import ParserCombinators.Proofs.Rule.Answer

/-!
The parsers for texts always answer, and whatever they fail with is a text. They
take the markers off the errors of their parts and join and convert what they
have read; none of this can go wrong, but for the reading of a number with too
many digits.
-/

namespace ParserCombinators

open Run

variable {count : Prop} {O E : Value → Prop}

namespace Rule

section Blank

theorem answers_character (c : CodePoint) (error : Text) :
    (character c error).Answers count Value.IsText (· = .text error) :=
  answers_element (fun _ => ⟨_, rfl⟩) _

theorem answers_characterOf (characters error : Text) :
    (characterOf characters error).Answers count Value.IsText (· = .text error) :=
  answers_element (fun _ => ⟨_, rfl⟩) _

theorem answers_whitespaces : whitespaces.Answers count Value.IsText fun _ => False :=
  (answers_characterOf _ _).manyJoined

end Blank

section Comment

variable {p left right : Rule} {O' U L R : Value → Prop}

/-- Contents that never fail between delimiters whose errors are texts. -/
theorem Answers.between (hp : p.Answers count O fun _ => False) (hleft : left.Answers count U L)
    (hright : right.Answers count O' R) (hL : ∀ e, L e → e.IsText) (hR : ∀ e, R e → e.IsText) :
    (p.surroundedBy left right).foldAll.Answers count O Value.IsText := by
  refine (hp.surroundedBy hleft hright).mapError fun e he => ⟨_, rfl, ?_⟩
  obtain ⟨_, ⟨d, hd, rfl⟩ | ⟨_, hfalse, -⟩, rfl⟩ | ⟨d, hd, rfl⟩ := he
  · obtain ⟨s, rfl⟩ := hL d hd
    exact ⟨s, rfl⟩
  · exact hfalse.elim
  · obtain ⟨s, rfl⟩ := hR d hd
    exact ⟨s, rfl⟩

theorem isText_expected (v : Value) : (expected v).IsText := ⟨_, rfl⟩

theorem answers_lineContent : lineContent.Answers count Value.IsText fun _ => False :=
  (answers_element (fun _ => ⟨_, rfl⟩) _).manyJoined

theorem answers_lineComment (start : Text) :
    (lineComment (.text start)).Answers count Value.IsText Value.IsText := by
  have hnewlines : newline.manyQuietly.Answers count (Value.ListOf Value.IsText) fun _ => False :=
    (answers_character _ _).manyQuietly
  refine answers_lineContent.between (answers_literal start (expected (.text start))) hnewlines
    (fun e he => ?_) fun _ h => h.elim
  rw [he]
  exact isText_expected _

/-- The closing delimiter is looked for before each element. -/
theorem answers_blockElement (stop : Text) :
    (blockElement (.text stop)).Answers count Value.IsText
      (Value.SideOf (· = .text ("Reached \x60" ++ stop ++ "\x60."))
        (· = .text "Unterminated block comment.")) :=
  ((answers_literal stop (expected (.text stop))).not.seq
    (answers_element (fun _ => ⟨true, rfl⟩) _)).second

theorem answers_blockComment (start stop : Text) :
    (blockComment (.text start) (.text stop)).Answers count Value.IsText Value.IsText := by
  refine (answers_blockElement stop).manyJoined.between
    (answers_literal start (expected (.text start))) (answers_literal stop _) (fun e he => ?_)
    fun e he => ?_
  · rw [he]
    exact isText_expected _
  · rw [he]
    exact ⟨_, rfl⟩

end Comment

/-- Every text begins with a sign, if it has one, and a row of digits. The row is
empty, short enough to be read, or too long. -/
theorem answers_integer (hcount : count) :
    integer.Answers count Value.IsInteger (· = .text "Expected an integer.") := by
  refine answers_of_fits Logic.fits_integer fun t => ?_
  obtain ⟨sign, digits, u, rfl, hsign, hdigits, hu, hstart⟩ := Text.exists_signed_row t
  by_cases hne : digits = []
  · subst hne
    exact .inl ⟨_, integer_text_refuses hsign hu hstart⟩
  have hread := integer_text hsign hdigits hne hu
  by_cases hlength : digits.length ≤ Text.maximalDigits
  · rw [if_pos hlength] at hread
    exact .inl ⟨_, hread⟩
  · rw [if_neg hlength] at hread
    exact .inr ⟨hcount, ⟨sign, digits, u, rfl, hdigits, Nat.lt_of_not_le hlength⟩, hread⟩

/-- After the opening quote come pieces and then something at which no piece
begins, which is the closing quote or not. -/
theorem answers_quotedString :
    (quotedString generalQuotes generalEscape CharacterSet.generalEscapes).Answers count
      Value.IsText Value.IsText := by
  have hquotes : generalQuotes.HoldsCharacters [.doubleQuote, .singleQuote] := .inr (.inr rfl)
  have hescape : CodePoint.backslash ∉ [CodePoint.doubleQuote, .singleQuote] := by decide
  refine answers_of_fits (Logic.fits_quotedString _ _ _) fun t => .inl ?_
  by_cases hopening : ∃ quote u, t = quote :: u ∧ quote ∈ [CodePoint.doubleQuote, .singleQuote]
  · obtain ⟨quote, u, rfl, hquote⟩ := hopening
    obtain ⟨ws, v, rfl, hws, hstop⟩ :=
      exists_pieces quote .backslash CharacterSet.generalEscapes u
    by_cases hclosing : [quote] <+: v
    · obtain ⟨v, rfl⟩ := hclosing
      exact ⟨_, quotedString_text hquotes hquote hescape hws v⟩
    · obtain ⟨_, _, _, hescaped⟩ := hstop.escaped
      have hbroken := unquoted_text_refuses hws hstop hclosing hescaped
      exact ⟨_, quotedString_text_of_failure (hquotes.contains_of_mem hquote) hbroken⟩
  · refine ⟨_, quotedString_text_refuses hquotes fun c hc hmem => hopening ?_⟩
    obtain ⟨u, hu⟩ := List.head?_eq_some_iff.mp hc
    exact ⟨c, u, hu, hmem⟩

section Lexeme

variable {p q : Rule} {U : Value → Prop}

theorem Answers.lexeme (hp : p.Answers count O E) : p.lexeme.Answers count O E := by
  refine (hp.surroundedBy answers_whitespaces answers_whitespaces).mapError fun e he => ?_
  obtain ⟨_, ⟨_, hfalse, -⟩ | ⟨d, hd, rfl⟩, rfl⟩ | ⟨_, hfalse, -⟩ := he
  · exact hfalse.elim
  · exact ⟨d, rfl, hd⟩
  · exact hfalse.elim

theorem Answers.skipping (hp : p.Answers count O E) (hq : q.Answers count U fun _ => False) :
    (p.skipping q).Answers count O E := by
  refine (hq.seq hp).second.mapError fun e he => ?_
  obtain ⟨_, hfalse, -⟩ | ⟨d, hd, rfl⟩ := he
  · exact hfalse.elim
  · exact ⟨d, rfl, hd⟩

end Lexeme

end Rule

/-- The parsers for texts that have no parts. There are integers among them only
if `count`. -/
inductive Leaf.General (count : Prop) : Leaf → Prop
  | space : General count .space
  | tab : General count .tab
  | newline : General count .newline
  | carriageReturn : General count .carriageReturn
  | whitespace : General count .whitespace
  | whitespaces : General count .whitespaces
  | lineComment (start : Text) : General count (.lineComment (.text start))
  | blockComment (start stop : Text) : General count (.blockComment (.text start) (.text stop))
  | quotedString : General count
      (.quotedString Rule.generalQuotes Rule.generalEscape CharacterSet.generalEscapes)
  | integer (h : count) : General count .integer

namespace Grammar

/-- The parsers for texts, with any number of things to skip around them. -/
inductive General (count : Prop) : Grammar → Prop
  | leaf {l : Leaf} (hl : l.General count) : General count (leaf l)
  | lexeme {g : Grammar} (hg : General count g) : General count (wrap .lexeme g)
  | skipSpaces {g : Grammar} (hg : General count g) : General count (wrap .skipSpaces g)
  | skipLineComment {g : Grammar} (start : Text) (hg : General count g) :
    General count (wrap (.skipLineComment (.text start)) g)
  | skipBlockComment {g : Grammar} (start stop : Text) (hg : General count g) :
    General count (wrap (.skipBlockComment (.text start) (.text stop)) g)

/-- A parser without parts answers with texts, or with integers. -/
theorem answers_leaf {l : Leaf} (hl : l.General count) (depth : Nat) :
    ((Grammar.leaf l).run depth).Answers count (fun v => v.IsText ∨ v.IsInteger) Value.IsText := by
  have htext : ∀ {p : Rule} {e : Text}, p.Answers count Value.IsText (· = .text e) →
      p.Answers count (fun v => v.IsText ∨ v.IsInteger) Value.IsText := fun hp =>
    hp.loosen (fun _ hv => .inl hv) fun _ he => ⟨_, he⟩
  rw [run_leaf]
  cases hl with
  | space => exact htext (Rule.answers_character _ _)
  | tab => exact htext (Rule.answers_character _ _)
  | newline => exact htext (Rule.answers_character _ _)
  | carriageReturn => exact htext (Rule.answers_character _ _)
  | whitespace => exact htext (Rule.answers_characterOf _ _)
  | whitespaces => exact Rule.answers_whitespaces.loosen (fun _ hv => .inl hv) fun _ h => h.elim
  | lineComment start =>
    exact (Rule.answers_lineComment start).loosen (fun _ hv => .inl hv) fun _ he => he
  | blockComment start stop =>
    exact (Rule.answers_blockComment start stop).loosen (fun _ hv => .inl hv) fun _ he => he
  | quotedString => exact Rule.answers_quotedString.loosen (fun _ hv => .inl hv) fun _ he => he
  | integer hcount =>
    exact (Rule.answers_integer hcount).loosen (fun _ hv => .inr hv) fun _ he => ⟨_, he⟩

variable {g : Grammar}

/-- What is skipped never fails, so the answers stay those of the parser inside. -/
theorem General.answers (hg : g.General count) (depth : Nat) :
    (g.run depth).Answers count (fun v => v.IsText ∨ v.IsInteger) Value.IsText := by
  induction hg with
  | leaf hl => exact answers_leaf hl depth
  | lexeme _ ih =>
    rw [run_wrap]
    exact ih.lexeme
  | skipSpaces _ ih =>
    rw [run_wrap]
    exact ih.skipping (Rule.answers_character _ _).manyQuietly
  | skipLineComment start _ ih =>
    rw [run_wrap]
    exact ih.skipping (Rule.answers_lineComment start).maybe
  | skipBlockComment start stop _ ih =>
    rw [run_wrap]
    exact ih.skipping (Rule.answers_blockComment start stop).maybe

/-- On every text a parser for texts does nothing but answer, and what it fails
with is a text; only one that reads integers may end the run, and only on a text
with too many digits in a row. -/
theorem run_general (hg : g.General count) (depth : Nat) (t : Text) :
    (∃ (u : Text) (v : Value), u <:+ t ∧
      g.run depth (.text t) = pure (.success (.text u) v)) ∨
    (∃ u message : Text, u <:+ t ∧
      g.run depth (.text t) = pure (.failure (.text u) (.text message))) ∨
    count ∧ t.HasLongNumber ∧ g.run depth (.text t) = Run.fail .badValue := by
  obtain ⟨heq, hu, -⟩ | ⟨heq, hu, ⟨message, rfl⟩⟩ | ⟨heq, hcount, ht⟩ := hg.answers depth t
  · exact .inl ⟨_, _, hu, heq⟩
  · exact .inr (.inl ⟨_, message, hu, heq⟩)
  · exact .inr (.inr ⟨hcount, ht, heq⟩)

/-- A short text has no number with too many digits. -/
theorem run_general_signAlone :
    (wrap .lexeme (leaf .integer)).General True ∧
      ((∃ (u : Text) (v : Value), u <:+ " - " ∧
        (wrap .lexeme (leaf .integer)).run 0 (.text " - ") = pure (.success (.text u) v)) ∨
      ∃ u message : Text, u <:+ " - " ∧
        (wrap .lexeme (leaf .integer)).run 0 (.text " - ") =
          pure (.failure (.text u) (.text message))) := by
  have hg : (wrap .lexeme (leaf .integer)).General True := .lexeme (.leaf (.integer trivial))
  refine ⟨hg, ?_⟩
  obtain h | h | ⟨-, hlong, -⟩ := run_general hg 0 " - "
  · exact .inl h
  · exact .inr h
  · exact absurd hlong.lt_length (by decide)

/-- A text of one digit too many is no failure. -/
theorem run_integer_excess :
    (leaf .integer).General True ∧
      (leaf .integer).parse (.text (List.replicate (Text.maximalDigits + 1) (.ofChar '1'))) =
        Run.fail .badValue := by
  refine ⟨.leaf (.integer trivial), ?_⟩
  have hdigits : Text.Decimal (List.replicate (Text.maximalDigits + 1) (.ofChar '1')) := by
    intro c hc
    rw [List.eq_of_mem_replicate hc]
    decide
  have hlength := List.length_replicate (n := Text.maximalDigits + 1) (a := CodePoint.ofChar '1')
  have hread := Rule.integer_text (u := []) (.inl rfl) hdigits
    (List.ne_nil_of_length_eq_add_one hlength) nofun
  rw [if_neg (by rw [hlength]; omega), List.nil_append, List.append_nil] at hread
  rw [parse, run_leaf]
  exact hread

end Grammar

end ParserCombinators
