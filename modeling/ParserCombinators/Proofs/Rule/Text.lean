import Mathlib.Data.List.TakeWhile
import ParserCombinators.Lexical.Lexeme
import ParserCombinators.Proofs.Rule.Structure
import ParserCombinators.Proofs.Uniform

/-!
Rules on texts. Where the input is a text, the rules that look at it themselves
are known to the letter, and so are the repetitions of one that reads the text
piece by piece.
-/

namespace ParserCombinators

namespace Text

/-- A text is made up of its characters. -/
theorem flatten_characters (t : Text) : (t.map fun c => [c]).flatten = t := by
  rw [← List.flatMap_def, List.flatMap_singleton']

theorem forall_head?_cons {P : CodePoint → Prop} {d : CodePoint} (hd : P d) (t : Text) :
    ∀ c, (d :: t).head? = some c → P c := by
  intro c hc
  rwa [← Option.some.inj hc]

/-- A text is cut before the first character that does not pass a test. -/
theorem takeWhile_dropWhile (p : CodePoint → Bool) (t : Text) :
    t.takeWhile p ++ t.dropWhile p = t ∧ (∀ c ∈ t.takeWhile p, p c = true) ∧
      ∀ c, (t.dropWhile p).head? = some c → p c = false := by
  refine ⟨List.takeWhile_append_dropWhile, fun c hc => List.mem_takeWhile_imp hc, ?_⟩
  intro c hc
  have hnot := List.head?_dropWhile_not p t
  rwa [hc] at hnot

theorem head?_dropWhile_mem (characters t : Text) :
    ∀ c, (t.dropWhile (· ∈ characters)).head? = some c → c ∉ characters := by
  intro c hc
  exact of_decide_eq_false ((takeWhile_dropWhile (fun c => decide (c ∈ characters)) t).2.2 c hc)

section Trim

variable {t : Text}

/-- A text without the whitespace that it begins with. -/
def trimStart (t : Text) : Text := t.dropWhile (· ∈ CharacterSet.whitespaces)

theorem head?_trimStart (t : Text) :
    ∀ c, t.trimStart.head? = some c → c ∉ CharacterSet.whitespaces :=
  head?_dropWhile_mem CharacterSet.whitespaces t

theorem trimStart_of_head? (h : ∀ c, t.head? = some c → c ∉ CharacterSet.whitespaces) :
    t.trimStart = t := by
  cases t with
  | nil => rfl
  | cons c t => exact List.dropWhile_cons_of_neg (by simp [h c rfl])

theorem trimStart_append (ht : ∀ c ∈ t, c ∈ CharacterSet.whitespaces) (u : Text) :
    (t ++ u).trimStart = u.trimStart :=
  List.dropWhile_append_of_pos fun c hc => by simp [ht c hc]

theorem trimStart_trimStart (t : Text) : t.trimStart.trimStart = t.trimStart :=
  trimStart_of_head? t.head?_trimStart

theorem trimStart_suffix (t : Text) : t.trimStart <:+ t := List.dropWhile_suffix _

end Trim

end Text

namespace Value

theorem equals_character (c d : CodePoint) : (text [c]).equals (text [d]) = decide (c = d) := by
  rw [equals, Bool.eq_iff_iff]
  simp

theorem length_text (t : Text) : (text t).length = pure t.length := rfl

theorem item_zero_text (c : CodePoint) (t : Text) : (text (c :: t)).item 0 = pure (text [c]) := by
  have hsize : ¬ (0 : Int) < -((c :: t).length : Int) := by omega
  rw [item, length_text, pure_bind, if_neg hsize]
  rfl

theorem cutAt_text_append (t u : Text) :
    (text (t ++ u)).cutAt t.length = pure (text t, text u) := by
  rw [cutAt, length_text, pure_bind, fromStart_natCast]
  simp only [takeFirst, dropFirst, List.take_left, List.drop_left]

theorem concat_texts (ts : List Text) : concat (ts.map text) = pure ts.flatten := by
  induction ts with
  | nil => rfl
  | cons t ts ih => simp [concat, ih]

theorem join_texts (ts : List Text) : (list (ts.map text)).join = pure (text ts.flatten) := by
  show concat (ts.map text) >>= _ = _
  rw [concat_texts]
  rfl

theorem join_characters (t : Text) :
    (list (t.map fun c => text [c])).join = pure (text t) := by
  have hjoin := join_texts (t.map fun c => [c])
  rw [List.map_map, Text.flatten_characters] at hjoin
  exact hjoin

end Value

namespace Rule

theorem map_of_failure {p : Rule} {f : Value → Run Value} {input rest e : Value}
    (h : p input = pure (.failure rest e)) : p.map f input = pure (.failure rest e) := by
  rw [map, h]
  rfl

theorem mapError_of_success {p : Rule} {f : Value → Run Value} {input rest v : Value}
    (h : p input = pure (.success rest v)) : p.mapError f input = pure (.success rest v) := by
  rw [mapError, h]
  rfl

theorem mapError_of_failure {p : Rule} {f : Value → Run Value} {input rest e d : Value}
    (h : p input = pure (.failure rest e)) (hf : f e = pure d) :
    p.mapError f input = pure (.failure rest d) := by
  rw [mapError, h]
  simp only [pure_bind, Value.isTrue_failure, Bool.false_eq_true, if_false, Value.rest_failure,
    Value.error_failure, hf, reject]

section Surrounded

variable {p q left right : Rule} {input start stop rest v w e : Value}

theorem maybe_of_success (h : p input = pure (.success rest v)) :
    p.maybe input = pure (.success rest v) := by
  rw [maybe, h]
  rfl

theorem maybe_of_failure (h : p input = pure (.failure rest e)) :
    p.maybe input = pure (.success input .none) := by
  rw [maybe, h]
  rfl

theorem seq_of_success (hp : p input = pure (.success start v))
    (hq : q start = pure (.success rest w)) :
    p.seq q input = pure (.success rest (.tuple [v, w])) := by
  rw [seq, hp]
  simp [hq, accept]

theorem seq_of_left (hp : p input = pure (.failure rest e)) :
    p.seq q input = pure (.failure rest (.branch .left e)) := by
  rw [seq, hp]
  simp [reject]

theorem seq_of_right (hp : p input = pure (.success start v))
    (hq : q start = pure (.failure rest e)) :
    p.seq q input = pure (.failure rest (.branch .right e)) := by
  rw [seq, hp]
  simp [hq, reject]

theorem map_of_success {f : Value → Run Value} (h : p input = pure (.success rest v))
    (hf : f v = pure w) : p.map f input = pure (.success rest w) := by
  rw [map, h]
  simp [hf, accept]

theorem skip_of_success (hp : p input = pure (.success start v))
    (hq : q start = pure (.success rest w)) : p.skip q input = pure (.success rest v) :=
  mapError_of_success (map_of_success (seq_of_success hp hq) (Value.item_zero_pair v w))

theorem skip_of_right (hp : p input = pure (.success start v))
    (hq : q start = pure (.failure rest e)) : p.skip q input = pure (.failure rest e) :=
  mapError_of_failure (map_of_failure (seq_of_right hp hq)) rfl

theorem surroundedBy_of_success (hleft : left input = pure (.success start w))
    (hp : p start = pure (.success stop v)) (hright : right stop = pure (.success rest e)) :
    p.surroundedBy left right input = pure (.success rest v) :=
  map_of_success (seq_of_success (seq_of_success hleft hp) hright) rfl

theorem surroundedBy_of_left (hleft : left input = pure (.failure rest e)) :
    p.surroundedBy left right input =
      pure (.failure rest (.branch .left (.branch .left e))) :=
  map_of_failure (seq_of_left (seq_of_left hleft))

theorem surroundedBy_of_right (hleft : left input = pure (.success start w))
    (hp : p start = pure (.success stop v)) (hright : right stop = pure (.failure rest e)) :
    p.surroundedBy left right input = pure (.failure rest (.branch .right e)) :=
  map_of_failure (seq_of_right (seq_of_success hleft hp) hright)

end Surrounded

section Folded

variable {p q : Rule} {input rest rest' v e e' : Value}

theorem foldedAlt_left (h : p input = pure (.success rest v)) :
    (p.alt q).map Value.foldBranch input = pure (.success rest v) := by
  rw [map, alt, h]
  simp [accept, Value.foldBranch]

theorem foldedAlt_right (hp : p input = pure (.failure rest' e))
    (hq : q input = pure (.success rest v)) :
    (p.alt q).map Value.foldBranch input = pure (.success rest v) := by
  rw [map, alt, hp]
  simp [hq, accept, Value.foldBranch]

theorem foldedAlt_refuses (hp : p input = pure (.failure rest e))
    (hq : q input = pure (.failure rest' e')) :
    (p.alt q).map Value.foldBranch input = pure (.failure input (.tuple [e, e'])) := by
  refine map_of_failure ?_
  rw [alt, hp]
  simp [hq, reject]

end Folded

variable {test : Value → Run Bool} {error : Value} {t : Text} {c : CodePoint}

theorem literal_text_append (t u : Text) :
    literal (.text t) error (.text (t ++ u)) = pure (.success (.text u) (.text t)) := by
  show (Value.text (t ++ u)).cutAt t.length >>= _ = _
  rw [Value.cutAt_text_append]
  simp [Value.equals, accept]

theorem literal_character (c : CodePoint) (t : Text) :
    literal (.text [c]) error (.text (c :: t)) = pure (.success (.text t) (.text [c])) :=
  literal_text_append [c] t

theorem literal_text_refuses {u : Text} (h : ¬ t <+: u) :
    literal (.text t) error (.text u) = pure (.failure (.text u) error) := by
  have htake : u.take t.length ≠ t := fun heq => h (heq ▸ List.take_prefix ..)
  show (if (Value.text (u.take (Value.fromStart u.length t.length))).equals (.text t) then _
    else _) = _
  simp [Value.fromStart_natCast, Value.equals, htake, reject]

theorem element_text_nil : element test error (.text []) = pure (.failure (.text []) error) := rfl

theorem element_text_cons (h : test (.text [c]) = pure true) (t : Text) :
    element test error (.text (c :: t)) = pure (.success (.text t) (.text [c])) := by
  rw [element, Value.length_text, pure_bind, if_neg (by simp),
    Value.item_zero_text, pure_bind, h]
  rfl

theorem element_text_refuses (h : test (.text [c]) = pure false) (t : Text) :
    element test error (.text (c :: t)) = pure (.failure (.text (c :: t)) error) := by
  rw [element, Value.length_text, pure_bind, if_neg (by simp),
    Value.item_zero_text, pure_bind, h]
  rfl

theorem anything_text_cons (c : CodePoint) (t : Text) :
    anything error (.text (c :: t)) = pure (.success (.text t) (.text [c])) :=
  element_text_cons rfl t

section Repetitions

variable {p : Rule} {outputs : List Value} {onStall : Nat → Run Unit}

/-- Pieces of a text that a rule reads one after the other, each where it stands:
what each of them means, and what is left after them. -/
inductive Reads (p : Rule) : Text → List Text → Text → Prop
  | done (t : Text) : Reads p t [] t
  | piece {t u m : Text} {ms : List Text} {rest : Text} (hshorter : u.length < t.length)
    (h : p (.text t) = pure (.success (.text u) (.text m))) (hrest : Reads p u ms rest) :
    Reads p t (m :: ms) rest

theorem Reads.append {u w : Text} {ms ns : List Text} (h : Reads p t ms u) (h' : Reads p u ns w) :
    Reads p t (ms ++ ns) w := by
  induction h with
  | done => exact h'
  | piece hshorter hpiece _ ih => exact .piece hshorter hpiece (ih h')

/-- A match of a piece of the text is one more output of a repetition. -/
theorem manyFrom_text_step {u : Text} {v : Value} (hshorter : u.length < t.length)
    (h : p (.text t) = pure (.success (.text u) v)) :
    manyFrom onStall p outputs (.text t) = manyFrom onStall p (outputs ++ [v]) (.text u) := by
  have hsmaller : (Value.text u).size < (Value.text t).size := hshorter
  rw [manyFrom, h]
  simp [Value.comparable, Value.isSequence, hsmaller]

theorem manyFrom_stop {input rest e : Value} (h : p input = pure (.failure rest e)) :
    manyFrom onStall p outputs input = pure (.success rest (.list outputs)) := by
  rw [manyFrom, h]
  simp [accept]

/-- A repetition reads all pieces up to the place where its rule fails. -/
theorem manyFrom_reads {u : Text} {ms : List Text} {rest e : Value} (hread : Reads p t ms u)
    (hstop : p (.text u) = pure (.failure rest e)) :
    manyFrom onStall p outputs (.text t) =
      pure (.success rest (.list (outputs ++ ms.map .text))) := by
  induction hread generalizing outputs with
  | done t => simpa using manyFrom_stop hstop
  | @piece t u m ms v hshorter h _ ih =>
    rw [manyFrom_text_step hshorter h, ih hstop]
    simp

theorem manyQuietly_reads {u : Text} {ms : List Text} {rest e : Value} (hread : Reads p t ms u)
    (hstop : p (.text u) = pure (.failure rest e)) :
    p.manyQuietly (.text t) = pure (.success rest (.list (ms.map .text))) :=
  manyFrom_reads hread hstop

theorem manyJoined_reads {u : Text} {ms : List Text} {rest e : Value} (hread : Reads p t ms u)
    (hstop : p (.text u) = pure (.failure rest e)) :
    p.manyJoined (.text t) = pure (.success rest (.text ms.flatten)) := by
  rw [manyJoined, map, manyQuietly_reads hread hstop]
  simp only [pure_bind, Value.isTrue_success, if_true, Value.rest_success,
    Value.output_success, Value.join_texts, accept]

/-- Pieces that are read whatever follows them. -/
theorem reads_pieces {ws : List (Text × Text)} (hne : ∀ w ∈ ws, w.1 ≠ [])
    (hread : ∀ w ∈ ws, ∀ t, p (.text (w.1 ++ t)) = pure (.success (.text t) (.text w.2)))
    (u : Text) : Reads p ((ws.map Prod.fst).flatten ++ u) (ws.map Prod.snd) u := by
  induction ws with
  | nil => exact .done u
  | cons w ws ih =>
    have hrest := ih (fun x hx => hne x (List.mem_cons_of_mem w hx))
      fun x hx => hread x (List.mem_cons_of_mem w hx)
    have hw := hread w List.mem_cons_self ((ws.map Prod.fst).flatten ++ u)
    have hpos : 0 < w.1.length := List.length_pos_iff.mpr (hne w List.mem_cons_self)
    rw [List.map_cons, List.flatten_cons, List.append_assoc]
    have hshorter : ((ws.map Prod.fst).flatten ++ u).length <
        (w.1 ++ ((ws.map Prod.fst).flatten ++ u)).length := by
      simp only [List.length_append]
      omega
    exact .piece hshorter hw hrest

theorem reads_elements (ht : ∀ c ∈ t, test (.text [c]) = pure true) (u : Text) :
    Reads (element test error) (t ++ u) (t.map fun c => [c]) u := by
  induction t with
  | nil => exact .done u
  | cons c t ih =>
    obtain ⟨hc, ht⟩ := List.forall_mem_cons.mp ht
    exact .piece (Nat.lt_succ_self _) (element_text_cons hc (t ++ u)) (ih ht)

/-- All elements that come first and pass are read. -/
theorem manyQuietly_elements {u : Text} (ht : ∀ c ∈ t, test (.text [c]) = pure true)
    (hu : ∀ c, u.head? = some c → test (.text [c]) = pure false) :
    (element test error).manyQuietly (.text (t ++ u)) =
      pure (.success (.text u) (.list (t.map fun c => .text [c]))) := by
  have hread : Reads (element test error) (t ++ u) (t.map fun c => [c]) u := reads_elements ht u
  have hstop : element test error (.text u) = pure (.failure (.text u) error) := by
    cases u with
    | nil => exact element_text_nil
    | cons c u => exact element_text_refuses (hu c rfl) u
  rw [manyQuietly_reads hread hstop, List.map_map]
  rfl

theorem manyJoined_elements {u : Text} (ht : ∀ c ∈ t, test (.text [c]) = pure true)
    (hu : ∀ c, u.head? = some c → test (.text [c]) = pure false) :
    (element test error).manyJoined (.text (t ++ u)) = pure (.success (.text u) (.text t)) :=
  map_of_success (manyQuietly_elements ht hu) (Value.join_characters t)

end Repetitions

section Characters

variable {characters message : Text}

theorem characterOf_text_cons (h : c ∈ characters) (t : Text) :
    characterOf characters message (.text (c :: t)) = pure (.success (.text t) (.text [c])) :=
  element_text_cons (by simp [Value.isOneOf, h]) t

theorem characterOf_text_refuses (h : ∀ d, t.head? = some d → d ∉ characters) :
    characterOf characters message (.text t) = pure (.failure (.text t) (.text message)) := by
  cases t with
  | nil => rfl
  | cons c t => exact element_text_refuses (by simp [Value.isOneOf, h c rfl]) t

theorem exactlyFrom_characterOf_text {digits : Text} (hdigits : ∀ d ∈ digits, d ∈ characters)
    (outputs : List Value) (u : Text) :
    exactlyFrom error (characterOf characters message) digits.length outputs (.text (digits ++ u)) =
      pure (.success (.text u) (.list (outputs ++ digits.map fun d => .text [d]))) := by
  induction digits generalizing outputs with
  | nil => simp [exactlyFrom, accept]
  | cons d digits ih =>
    have hd : characterOf characters message (.text (d :: (digits ++ u))) =
        pure (.success (.text (digits ++ u)) (.text [d])) :=
      characterOf_text_cons (hdigits d List.mem_cons_self) (digits ++ u)
    have hrest := ih fun x hx => hdigits x (List.mem_cons_of_mem d hx)
    rw [List.length_cons, exactlyFrom, List.cons_append, hd]
    simp [hrest]

theorem exactly_characterOf_text {count : Nat} {digits : Text} (hcount : digits.length = count)
    (hdigits : ∀ d ∈ digits, d ∈ characters) (u : Text) :
    (characterOf characters message).exactly count error (.text (digits ++ u)) =
      pure (.success (.text u) (.list (digits.map fun d => .text [d]))) := by
  subst hcount
  exact exactlyFrom_characterOf_text hdigits [] u

/-- A text that does not begin with so many characters of a set is refused. -/
theorem exactlyFrom_characterOf_text_cases (characters message : Text) (error : Value) (count : Nat)
    (outputs : List Value) (t : Text) :
    (∃ digits u, t = digits ++ u ∧ digits.length = count ∧ ∀ d ∈ digits, d ∈ characters) ∨
      ∃ rest, exactlyFrom error (characterOf characters message) count outputs (.text t) =
        pure (.failure rest error) := by
  induction count generalizing t outputs with
  | zero => exact .inl ⟨[], t, rfl, rfl, nofun⟩
  | succ count ih =>
    by_cases hhead : ∃ d u, t = d :: u ∧ d ∈ characters
    · obtain ⟨d, u, rfl, hd⟩ := hhead
      have hstep : characterOf characters message (.text (d :: u)) =
          pure (.success (.text u) (.text [d])) := characterOf_text_cons hd u
      obtain ⟨digits, v, rfl, hcount, hdigits⟩ | ⟨rest, hrest⟩ := ih (outputs ++ [.text [d]]) u
      · exact .inl ⟨d :: digits, v, rfl, by rw [List.length_cons, hcount],
          List.forall_mem_cons.mpr ⟨hd, hdigits⟩⟩
      · refine .inr ⟨rest, ?_⟩
        rw [exactlyFrom, hstep]
        simp [hrest]
    · have hrefuse : ∀ d, t.head? = some d → d ∉ characters := by
        intro d hd hmem
        obtain ⟨u, rfl⟩ := List.head?_eq_some_iff.mp hd
        exact hhead ⟨d, u, rfl, hmem⟩
      refine .inr ⟨.text t, ?_⟩
      rw [exactlyFrom, characterOf_text_refuses hrefuse]
      simp [reject]

theorem maybe_characterOf_text_cons (h : c ∈ characters) (t : Text) :
    (characterOf characters message).maybe (.text (c :: t)) =
      pure (.success (.text t) (.text [c])) :=
  maybe_of_success (characterOf_text_cons h t)

theorem maybe_characterOf_text_none (h : ∀ d, t.head? = some d → d ∉ characters) :
    (characterOf characters message).maybe (.text t) = pure (.success (.text t) .none) :=
  maybe_of_failure (characterOf_text_refuses h)

/-- A repetition of characters of a set reads all of them that come first. -/
theorem atLeastFrom_characterOf_text {count : Nat} {digits u : Text}
    (hdigits : ∀ d ∈ digits, d ∈ characters) (hu : ∀ d, u.head? = some d → d ∉ characters)
    (outputs : List Value) :
    atLeastFrom count error (characterOf characters message) outputs (.text (digits ++ u)) =
      if outputs.length + digits.length < count then pure (.failure (.text u) error)
      else pure (.success (.text u) (.list (outputs ++ digits.map fun d => .text [d]))) := by
  induction digits generalizing outputs with
  | nil =>
    rw [List.nil_append, atLeastFrom, characterOf_text_refuses hu]
    simp [reject, accept]
  | cons d digits ih =>
    have hd : characterOf characters message (.text (d :: (digits ++ u))) =
        pure (.success (.text (digits ++ u)) (.text [d])) :=
      characterOf_text_cons (hdigits d List.mem_cons_self) (digits ++ u)
    have hrest := ih (fun x hx => hdigits x (List.mem_cons_of_mem d hx)) (outputs ++ [.text [d]])
    have hlength : (outputs ++ [Value.text [d]]).length + digits.length =
        outputs.length + (d :: digits).length := by
      simp only [List.length_append, List.length_cons, List.length_nil]
      omega
    have hlonger : ¬ (Value.text (d :: (digits ++ u))).size ≤ (Value.text (digits ++ u)).size := by
      simp only [Value.size, List.length_cons]
      omega
    rw [List.cons_append, atLeastFrom, hd]
    simp only [pure_bind, Value.isTrue_success, if_true, Value.rest_success, Value.comparable,
      Value.isSequence, Bool.and_self, hlonger, false_and, if_false, Value.output_success, hrest,
      hlength, List.map_cons, List.append_assoc, List.singleton_append]

end Characters

section Whitespace

/-- All whitespace that comes first is read. -/
theorem whitespaces_text {t u : Text} (ht : ∀ c ∈ t, c ∈ CharacterSet.whitespaces)
    (hu : ∀ c, u.head? = some c → c ∉ CharacterSet.whitespaces) :
    whitespaces (.text (t ++ u)) = pure (.success (.text u) (.text t)) := by
  refine manyJoined_elements (fun c hc => ?_) fun c hc => ?_
  · simp [Value.isOneOf, ht c hc]
  · simp [Value.isOneOf, hu c hc]

theorem whitespaces_text_trimStart (t : Text) : ∃ blank : Text,
    whitespaces (.text t) = pure (.success (.text t.trimStart) (.text blank)) := by
  obtain ⟨hsplit, hblank, hrest⟩ :=
    Text.takeWhile_dropWhile (fun c => decide (c ∈ CharacterSet.whitespaces)) t
  have hread := whitespaces_text (fun c hc => of_decide_eq_true (hblank c hc))
    fun c hc => of_decide_eq_false (hrest c hc)
  rw [hsplit] at hread
  exact ⟨_, hread⟩

variable {p : Rule} {t u : Text} {v e : Value}

/-- Whitespace around what a rule reads is left out. -/
theorem lexeme_of_success (h : p (.text t.trimStart) = pure (.success (.text u) v)) :
    p.lexeme (.text t) = pure (.success (.text u.trimStart) v) := by
  obtain ⟨before, hbefore⟩ := whitespaces_text_trimStart t
  obtain ⟨after, hafter⟩ := whitespaces_text_trimStart u
  exact mapError_of_success (surroundedBy_of_success hbefore h hafter)

theorem lexeme_of_failure (h : p (.text t.trimStart) = pure (.failure (.text u) e)) :
    p.lexeme (.text t) = pure (.failure (.text u) e) := by
  obtain ⟨before, hbefore⟩ := whitespaces_text_trimStart t
  exact mapError_of_failure (map_of_failure (seq_of_left (seq_of_right hbefore h))) rfl

end Whitespace

end Rule

end ParserCombinators
