import ParserCombinators.Proofs.Rule.Input
import ParserCombinators.Proofs.Rule.Look
import ParserCombinators.Proofs.Rule.Repeat
import ParserCombinators.Proofs.Rule.Structure

/-!
The parsers for texts. They output texts or integers and fail with the texts
of their own errors, and what they leave is a suffix of their input.
-/

namespace ParserCombinators

open Run

namespace Value

def IsText (v : Value) : Prop := ∃ t, v = text t

def IsInteger (v : Value) : Prop := ∃ n, v = int n

theorem eq_text_of_equals {v : Value} {t : Text} (h : v.equals (text t) = true) : v = text t := by
  cases v <;> simp_all [equals]

theorem isOneOf_returns_true {v : Value} {characters : Text}
    (h : (v.isOneOf characters).Returns true) : ∃ c ∈ characters, v = text [c] := by
  unfold isOneOf at h
  split at h
  · rename_i c
    exact ⟨c, by simpa using (returns_pure.mp h).symm, rfl⟩
  · split at h
    · cases returns_pure.mp h
    · exact absurd h not_returns_fail

theorem isText_of_join {v w : Value} (h : v.join.Returns w) : w.IsText := by
  obtain ⟨items, -, h⟩ := h.of_bind
  obtain ⟨t, -, h⟩ := h.of_bind
  exact ⟨t, returns_pure.mp h⟩

theorem isInteger_of_toInteger {v w : Value} (h : v.toInteger.Returns w) : w.IsInteger := by
  have hread : ∀ t, (readInteger t).Returns w → w.IsInteger := by
    intro t ht
    obtain ⟨n, -, ht⟩ := ht.of_bind
    exact ⟨n, returns_pure.mp ht⟩
  unfold toInteger at h
  split at h
  · exact hread _ h
  · split at h
    · exact hread _ h
    · exact absurd h not_returns_fail
  · obtain ⟨n, -, h⟩ := h.of_bind
    exact ⟨n, returns_pure.mp h⟩

end Value

namespace Run.Logic

variable {ι : Type} {L : Logic ι} {X : Scope ι} {I : Inputs} {S T U : Shape ι} {p q : ι → Rule}

/-- Outputs that a function makes of others, which may be any. -/
theorem Fits.mapTo {A B C : Value → Prop} {f : Value → Run Value} (hp : L.Fits X (.of A B) p)
    (hf : ∀ v, (f v).Shallow) (hC : ∀ v w, (f v).Returns w → C w) :
    L.Fits X (.of C B) fun i => (p i).map f := by
  refine hp.map ?_ (fun _ he => he) fun _ hr => hr
  intro a ha
  obtain ⟨v, -, rfl⟩ := ha
  exact L.steady (hf v) fun w hw => uniform_const (hC v w hw)

section Blank

theorem fits_character [X.Elementwise] (c : CodePoint) (error : Text) :
    L.Fits X (Shape.of (· = .text [c]) (· = .text error))
      fun _ => Rule.character c error := by
  refine fits_element_steady (fun _ => shallow_pure _) (fun v hv => ?_) (uniform_const rfl)
  have hequals : v.equals (.text [c]) = true := (returns_pure.mp hv).symm
  exact uniform_const (Value.eq_text_of_equals hequals)

theorem fits_characterOf [X.Elementwise] (characters error : Text) :
    L.Fits X
      (Shape.of (fun v => ∃ c ∈ characters, v = .text [c]) (· = .text error))
      fun _ => Rule.characterOf characters error :=
  fits_element_steady (fun v => v.shallow_isOneOf characters)
    (fun _ hv => uniform_const (Value.isOneOf_returns_true hv)) (uniform_const rfl)

theorem Fits.optional {A B : Value → Prop} (hp : L.Fits X (.of A B) p) :
    L.Fits X (.of (fun _ => True) fun _ => False) fun i => (p i).maybe :=
  hp.maybe (fun _ => Uniform.mono fun _ _ => trivial) (uniform_const trivial) fun _ hr => hr

theorem Fits.manyQuietly (hp : L.Fits X S p)
    (hlists : ∀ vs : List (ι → Value), (∀ v ∈ vs, S.outputs v) → U.outputs (listOf vs)) :
    L.Fits X U fun i => (p i).manyQuietly :=
  hp.many (fun _ => L.pure trivial) hlists

/-- Joining makes one text of the outputs, if it does not end the run. -/
theorem Fits.manyJoined {A B : Value → Prop} (hp : L.Fits X (.of A B) p) :
    L.Fits X (.of Value.IsText fun _ => False) fun i => (p i).manyJoined := by
  have hlist : L.Fits X (.of (fun _ => True) fun _ => False) fun i => (p i).manyQuietly :=
    hp.manyQuietly fun _ hvs => uniform_listOf hvs fun _ _ _ => trivial
  exact hlist.mapTo Value.shallow_join fun _ _ => Value.isText_of_join

theorem fits_whitespaces [X.Elementwise] :
    L.Fits X (.of Value.IsText fun _ => False) fun _ => Rule.whitespaces :=
  (fits_characterOf _ _).manyJoined

end Blank

section Integer

theorem isInteger_of_signedInteger {pair w : Value} (h : (Rule.signedInteger pair).Returns w) :
    w.IsInteger := by
  obtain ⟨_, -, h⟩ := h.of_bind
  obtain ⟨_, -, h⟩ := h.of_bind
  obtain ⟨_, -, h⟩ := h.of_bind
  obtain ⟨_, -, h⟩ := h.of_bind
  exact Value.isInteger_of_toInteger h

/-- A sequence of two rules; pairs of outputs are not told apart. -/
theorem Fits.seqOf {A B A' B' : Value → Prop} (hp : L.Fits X (.of A B) p)
    (hq : L.Fits X (.of A' B') q) :
    L.Fits X (.of (fun v => ∃ a b, A a ∧ A' b ∧ v = .tuple [a, b])
      fun e => (∃ d, B d ∧ e = .branch .left d) ∨ ∃ d, B' d ∧ e = .branch .right d)
      fun i => (p i).seq (q i) :=
  hp.seq hq
    (fun _ _ hv hw => hv.map₂ (f := fun v w => .tuple [v, w]) hw fun v w hv hw =>
      ⟨v, w, hv, hw, rfl⟩)
    (fun _ he => he.map fun e he => .inl ⟨e, he, rfl⟩)
    fun _ he => he.map fun e he => .inr ⟨e, he, rfl⟩

theorem fits_digits [X.Elementwise] :
    L.Fits X (.of (fun _ => True) (· = .text "Expected an integer.")) fun _ =>
      (Rule.characterOf CharacterSet.decimal "Expected a digit.").atLeast 1
        (.text "Expected an integer.") :=
  (fits_characterOf _ _).atLeast (fun _ _ hvs => uniform_listOf hvs fun _ _ _ => trivial)
    (uniform_const rfl)

theorem fits_integer [X.Elementwise] :
    L.Fits X (.of Value.IsInteger (· = .text "Expected an integer."))
      fun _ => Rule.integer := by
  have hsign : L.Fits X (.of (fun _ => True) fun _ => False) fun _ =>
      (Rule.characterOf CharacterSet.signs "Expected a sign.").maybe :=
    (fits_characterOf _ _).optional
  refine Fits.backtrack (S := .of Value.IsInteger (· = .text "Expected an integer.")) ?_
    (fun _ hv => hv) (fun _ he => he) fun _ hr => hr
  refine Fits.fold ((hsign.seqOf fits_digits).mapTo Rule.shallow_signedInteger
    fun _ _ => isInteger_of_signedInteger) (fun _ hv => hv) ?_ fun _ hr => hr
  intro a ha
  obtain ⟨_, ⟨_, hfalse, _⟩ | ⟨_, rfl, rfl⟩, rfl⟩ := ha
  · exact hfalse.elim
  · exact L.pure (uniform_const rfl)

end Integer

section Comment

/-- Contents that never fail between delimiters whose errors are texts: all
markers around the errors are taken off. -/
theorem Fits.between {A B C D E : Value → Prop} {left right : ι → Rule}
    (hleft : L.Fits X (.of C B) left) (hp : L.Fits X (.of A fun _ => False) p)
    (hright : L.Fits X (.of D E) right) (hB : ∀ e, B e → e.IsText) (hE : ∀ e, E e → e.IsText) :
    L.Fits X (.of A fun e => B e ∨ E e)
      fun i => ((p i).surroundedBy (left i) (right i)).foldAll := by
  have hmiddle := (hleft.handsOver.pair hp fun _ _ h => h).handsOver.surroundedBy hright
    (U := .of A fun e => (∃ d, B d ∧ e = .branch .left (.branch .left d)) ∨
      ∃ d, E d ∧ e = .branch .right d) (fun _ _ h => h) (fun _ hv => hv)
    (fun _ he => he.map (f := fun e => .branch .left (.branch .left e)) fun d hd =>
      .inl ⟨d, hd, rfl⟩)
    (fun _ he => he.map (f := fun e => .branch .left (.branch .right e)) fun _ h => h.elim)
    fun _ he => he.map fun d hd => .inr ⟨d, hd, rfl⟩
  refine hmiddle.foldAll (fun _ hv => hv) (fun _ he => he.map ?_) fun _ hr => hr
  intro a ha
  rcases ha with ⟨d, hd, rfl⟩ | ⟨d, hd, rfl⟩
  · obtain ⟨t, rfl⟩ := hB d hd
    exact .inl hd
  · obtain ⟨t, rfl⟩ := hE d hd
    exact .inr hd

theorem fits_lineContent :
    L.Fits (Scope.suffixes I) (.of Value.IsText fun _ => False) fun _ => Rule.lineContent :=
  (fits_element_steady (S := .of (fun _ => True) fun _ => True) (fun _ => shallow_pure _)
    (fun _ _ => uniform_const trivial) (uniform_const trivial)).manyJoined

theorem fits_lineComment (start : Value) :
    L.Fits (Scope.suffixes I) (.of Value.IsText (· = Rule.expected start))
      fun _ => Rule.lineComment start := by
  have hstart : L.Fits (Scope.suffixes I) (.of (fun _ => True) (· = Rule.expected start))
      fun _ => Rule.literal start (Rule.expected start) :=
    fits_literal (fun _ _ _ _ => uniform_const trivial) uniform_self
  have hnewlines := (fits_character (L := L) (X := Scope.suffixes I) CodePoint.newline
    "Expected a newline.").manyQuietly (U := .of (fun _ => True) fun _ => False)
    fun _ hvs => uniform_listOf hvs fun _ _ _ => trivial
  have hbetween := hstart.between fits_lineContent hnewlines (fun _ he => ⟨_, he⟩)
    fun _ h => h.elim
  exact hbetween.loosen (fun _ hv => hv) fun _ he => he.resolve_right id

theorem fits_blockElement (stop : Value) :
    L.Fits (Scope.suffixes I) (.of (fun _ => True) fun _ => True)
      fun _ => Rule.blockElement stop := by
  have hstop : L.Fits (Scope.suffixes I) (.of (fun _ => True) fun _ => True) fun _ =>
      Rule.literal stop (Rule.expected stop) :=
    fits_literal (fun _ _ _ _ => uniform_const trivial) (uniform_const trivial)
  have hother : L.Fits (Scope.suffixes I) (.of (fun _ => True) fun _ => True) fun _ =>
      (Rule.literal stop (Rule.expected stop)).not
        (.text ("Reached \x60" ++ stop.display ++ "\x60.")) :=
    hstop.not (uniform_const trivial) (uniform_const trivial)
  have helement : L.Fits (Scope.suffixes I) (.of (fun _ => True) fun _ => True) fun _ =>
      Rule.anything (.text "Unterminated block comment.") :=
    fits_anything (fun _ _ _ _ => uniform_const trivial) (uniform_const trivial)
  have hsecond := (hother.seqOf helement).mapTo (fun v => v.shallow_item 1)
    (C := fun _ => True) fun _ _ _ => trivial
  exact hsecond.loosen (fun _ hv => hv) fun _ _ => trivial

/-- The error for a block comment that is not closed. -/
def unclosed (stop : Value) : Value :=
  .text ("Expected \x60" ++ stop.display ++ "\x60 to close the block comment.")

theorem fits_blockComment (start stop : Value) :
    L.Fits (Scope.suffixes I)
      (.of Value.IsText fun e => e = Rule.expected start ∨ e = unclosed stop)
      fun _ => Rule.blockComment start stop := by
  have hstart : L.Fits (Scope.suffixes I) (.of (fun _ => True) (· = Rule.expected start))
      fun _ => Rule.literal start (Rule.expected start) :=
    fits_literal (fun _ _ _ _ => uniform_const trivial) uniform_self
  have hstop : L.Fits (Scope.suffixes I) (.of (fun _ => True) (· = unclosed stop))
      fun _ => Rule.literal stop (unclosed stop) :=
    fits_literal (fun _ _ _ _ => uniform_const trivial) uniform_self
  exact hstart.between (fits_blockElement stop).manyJoined hstop (fun _ he => ⟨_, he⟩)
    fun _ he => ⟨_, he⟩

end Comment

section QuotedString

theorem fits_unicodeEscape :
    L.Fits (Scope.suffixes I) (.of (fun _ => True) Value.IsText) fun _ => Rule.unicodeEscape := by
  have hdigits : L.Fits (Scope.suffixes I) (.of (fun _ => True) Value.IsText) fun _ =>
      (Rule.characterOf CharacterSet.hexadecimal "Expected a hexadecimal digit.").exactly 4
        (.text "Expected 4 hexadecimal characters after unicode escape sequence.") :=
    (fits_characterOf _ _).exactly (fun _ _ hvs => uniform_listOf hvs fun _ _ _ => trivial)
      (uniform_const ⟨_, rfl⟩)
  exact hdigits.mapTo Rule.shallow_spelledCharacter fun _ _ _ => trivial

theorem holds_resolveEscape (escapes : List (Text × Text)) (v : Value) :
    L.Holds (fun _ => Rule.resolveEscape escapes v)
      (L.Fits (Scope.suffixes I) (.of (fun _ => True) Value.IsText)) := by
  refine L.steady (Rule.shallow_resolveEscape escapes v) fun q hq => ?_
  unfold Rule.resolveEscape at hq
  split at hq
  · rw [returns_pure.mp hq]
    exact fits_unicodeEscape
  · obtain ⟨w, -, hq⟩ := hq.of_bind
    obtain ⟨_, -, hq⟩ := hq.of_bind
    rw [returns_pure.mp hq]
    exact fits_always (uniform_const trivial)

/-- The errors of an escape are texts under the marker of a sequence. -/
theorem fits_escaped (escape : Text) (escapes : List (Text × Text)) :
    L.Fits (Scope.suffixes I)
      (.of (fun _ => True) fun e => ∃ t, e = .branch .left (.text t) ∨ e = .branch .right (.text t))
      fun _ => Rule.escaped escape escapes := by
  have hescape : L.Fits (Scope.suffixes I) (.of (fun _ => True) Value.IsText) fun _ =>
      Rule.literal (.text escape) (Rule.expected (.text escape)) :=
    fits_literal (fun _ _ _ _ => uniform_const trivial) (uniform_const ⟨_, rfl⟩)
  have helement : L.Fits (Scope.suffixes I) (.of (fun _ => True) Value.IsText) fun _ =>
      Rule.anything (.text ("Expected a character to escape after \x60" ++ escape ++ "\x60.")) :=
    fits_anything (fun _ _ _ _ => uniform_const trivial) (uniform_const ⟨_, rfl⟩)
  have hchosen := helement.andThen (f := fun _ => Rule.resolveEscape escapes)
    (U := .of (fun _ => True) Value.IsText)
    (by
      intro a ha
      rcases ha with ⟨v, -, rfl⟩ | ⟨_, ⟨_, hfalse, _⟩, _⟩
      · exact holds_resolveEscape escapes v
      · exact hfalse.elim)
    (fun _ he => he) fun _ hr => hr
  have hsecond := (hescape.seqOf hchosen).mapTo (fun v => v.shallow_item 1)
    (C := fun _ => True) fun _ _ _ => trivial
  refine hsecond.loosen (fun _ hv => hv) ?_
  intro e he
  rcases he with ⟨_, ⟨t, rfl⟩, rfl⟩ | ⟨_, ⟨t, rfl⟩, rfl⟩
  · exact ⟨t, .inl rfl⟩
  · exact ⟨t, .inr rfl⟩

theorem closingError_left (t u : Text) :
    Rule.closingError (.tuple [.text t, .branch .left (.text u)]) = Pure.pure (.text t) := rfl

theorem closingError_right (t u : Text) :
    Rule.closingError (.tuple [.text t, .branch .right (.text u)]) = Pure.pure (.text u) := rfl

theorem fits_closing (quote : Value) (escape : Text) (escapes : List (Text × Text)) :
    L.Fits (Scope.suffixes I) (.of (fun _ => True) Value.IsText)
      fun _ => Rule.closing quote escape escapes := by
  have hquote : L.Fits (Scope.suffixes I) (.of (fun _ => True) Value.IsText) fun _ =>
      Rule.literal quote (.text ("Expected closing quote \x60" ++ quote.display ++ "\x60.")) :=
    fits_literal (fun _ _ _ _ => uniform_const trivial) (uniform_const ⟨_, rfl⟩)
  have halt := hquote.alt (fits_escaped escape escapes)
    (U := .of (fun _ => True) fun e => ∃ t u,
      e = .tuple [.text t, .branch .left (.text u)] ∨
        e = .tuple [.text t, .branch .right (.text u)])
    (fun _ hv => hv.map (f := .branch .left) fun _ _ => trivial)
    (fun _ hv => hv.map (f := .branch .right) fun _ _ => trivial)
    (fun _ _ hd he => hd.map₂ (f := fun d e => .tuple [d, e]) he (by
      intro a b ha hb
      obtain ⟨t, rfl⟩ := ha
      obtain ⟨u, rfl | rfl⟩ := hb
      · exact ⟨t, u, .inl rfl⟩
      · exact ⟨t, u, .inr rfl⟩))
  refine halt.mapError (fun _ hv => hv) ?_ fun _ hr => hr
  intro a ha
  obtain ⟨_, ⟨t, u, rfl | rfl⟩, rfl⟩ := ha
  · simp only [closingError_left]
    exact L.pure (uniform_const ⟨t, rfl⟩)
  · simp only [closingError_right]
    exact L.pure (uniform_const ⟨u, rfl⟩)

/-- What follows the opening quote. -/
theorem holds_contents (escape : Text) (escapes : List (Text × Text)) (quote : Value) :
    L.Holds (fun _ => Rule.contents escape escapes quote)
      (L.Fits (Scope.suffixes I) (.of Value.IsText Value.IsText)) := by
  refine L.bind_steady quote.shallow_length fun _ _ => L.pure ?_
  have hplain : L.Fits (Scope.suffixes I) (.of (fun _ => True) fun _ => True) fun _ =>
      Rule.element (fun c => Pure.pure (!c.equals quote && !c.equals (.text escape)))
        (.text "Expected a character.") :=
    fits_element_steady (fun _ => shallow_pure _) (fun _ _ => uniform_const trivial)
      (uniform_const trivial)
  have hpart := (fits_escaped escape escapes).alt hplain
    (U := .of (fun _ => True) fun _ => True)
    (fun _ hv => hv.map (f := .branch .left) fun _ _ => trivial)
    (fun _ hv => hv.map (f := .branch .right) fun _ _ => trivial)
    (fun _ _ hd he => hd.map₂ (f := fun d e => .tuple [d, e]) he fun _ _ _ _ => trivial)
  have hfold := hpart.mapTo Value.shallow_foldBranch (C := fun _ => True) fun _ _ _ => trivial
  exact hfold.manyJoined.handsOver.skip (fits_closing quote escape escapes) (fun _ _ h => h)
    (fun _ hv => hv) (fun _ he => he.mono fun _ h => h.elim) fun _ he => he

theorem fits_quotedString (quotes : Value) (escape : Text) (escapes : List (Text × Text)) :
    L.Fits (Scope.suffixes I) (.of Value.IsText Value.IsText)
      fun _ => Rule.quotedString quotes escape escapes := by
  have hquote : L.Fits (Scope.suffixes I) (.of (fun _ => True) Value.IsText) fun _ =>
      Rule.element (fun c => quotes.contains c) (.text "Expected a quoted string.") :=
    fits_element_steady (fun c => quotes.shallow_contains c) (fun _ _ => uniform_const trivial)
      (uniform_const ⟨_, rfl⟩)
  have hstring := hquote.andThen (f := fun _ => Rule.contents escape escapes)
    (U := .of Value.IsText Value.IsText)
    (by
      intro a ha
      rcases ha with ⟨v, -, rfl⟩ | ⟨_, ⟨_, hfalse, _⟩, _⟩
      · exact holds_contents escape escapes v
      · exact hfalse.elim)
    (fun _ he => he) fun _ hr => hr
  exact hstring.backtrack (fun _ hv => hv) (fun _ he => he) fun _ hr => hr

end QuotedString

section Lexeme

/-- Whitespace never fails, so the error stays that of the rule. -/
theorem Fits.lexeme {A : Value → Prop} {T : Shape ι} (hp : L.Fits X S p)
    (hblank : L.Fits X (.of A fun _ => False) fun _ => Rule.whitespaces)
    (houtputs : ∀ v, S.outputs v → T.outputs v) (herrors : ∀ e, S.errors e → T.errors e) :
    L.Fits X T fun i => (p i).lexeme := by
  have hbetween := (hblank.handsOver.pair hp fun _ _ h => h).handsOver.surroundedBy hblank
    (U := ⟨T.outputs, fun a => ∃ e, T.errors e ∧ a = fun i => .branch .left (.branch .right (e i)),
      fun _ => False⟩) (fun _ _ h => h) houtputs
    (fun _ ⟨_, hfalse, _⟩ => hfalse.elim) (fun e he => ⟨e, herrors e he, rfl⟩)
    fun _ ⟨_, hfalse, _⟩ => hfalse.elim
  refine hbetween.mapError (fun _ hv => hv) ?_ fun _ hr => hr.elim
  intro a ha
  obtain ⟨e, he, rfl⟩ := ha
  exact L.pure he

theorem Fits.skipping {A : Value → Prop} {T : Shape ι} (hp : L.Fits X S p)
    (hq : L.Fits X (.of A fun _ => False) q) (houtputs : ∀ v, S.outputs v → T.outputs v)
    (herrors : ∀ e, S.errors e → T.errors e) : L.Fits X T fun i => (p i).skipping (q i) := by
  have hafter := hq.handsOver.precededBy hp
    (U := ⟨T.outputs, fun a => ∃ e, T.errors e ∧ a = fun i => .branch .right (e i),
      fun _ => False⟩) (fun _ _ h => h) houtputs (fun _ ⟨_, hfalse, _⟩ => hfalse.elim)
    fun e he => ⟨e, herrors e he, rfl⟩
  refine hafter.mapError (fun _ hv => hv) ?_ fun _ hr => hr.elim
  intro a ha
  obtain ⟨e, he, rfl⟩ := ha
  exact L.pure he

theorem fits_spaces [X.Elementwise] :
    L.Fits X (.of (fun _ => True) fun _ => False)
      fun _ => Rule.space.manyQuietly :=
  (fits_character _ _).manyQuietly fun _ hvs => uniform_listOf hvs fun _ _ _ => trivial

end Lexeme

end Run.Logic

end ParserCombinators
