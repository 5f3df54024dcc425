import ParserCombinators.Proofs.Handles.Unfolding
import ParserCombinators.Proofs.Rule.Text

/-!
The depth of balanced parentheses. The recursive grammar counts the parentheses that
open at the beginning of a text, if they are all closed again right behind the last of
them, and outputs zero otherwise. One missing parenthesis is enough: the level that it
would close falls back to zero before its own parenthesis, so the level around it does
not find the one that closes it either, and so on outward.
-/

namespace ParserCombinators

open Run

namespace Text

/-- So many opening parentheses. -/
def opens (m : Nat) : Text := List.replicate m (CodePoint.ofChar '(')

/-- So many closing parentheses. -/
def closes (k : Nat) : Text := List.replicate k (CodePoint.ofChar ')')

/-- How many parentheses open at the beginning of a text. -/
def opened (t : Text) : Nat := (t.takeWhile (· == CodePoint.ofChar '(')).length

/-- How many parentheses close directly behind those that open. -/
def closed (t : Text) : Nat :=
  ((t.dropWhile (· == CodePoint.ofChar '(')).takeWhile (· == CodePoint.ofChar ')')).length

theorem opens_succ (m : Nat) : opens (m + 1) = "(" ++ opens m := rfl

theorem closes_succ (k : Nat) : closes (k + 1) = ")" ++ closes k := rfl

/-- A text is a row of one character, as long as it can be, and what follows. -/
theorem replicate_append_dropWhile (c : CodePoint) (t : Text) :
    List.replicate (t.takeWhile (· == c)).length c ++ t.dropWhile (· == c) = t ∧
      ¬ [c] <+: t.dropWhile (· == c) := by
  obtain ⟨hsplit, hsame, hnext⟩ := takeWhile_dropWhile (· == c) t
  have hrow : t.takeWhile (· == c) = List.replicate (t.takeWhile (· == c)).length c :=
    List.eq_replicate_iff.mpr ⟨rfl, fun d hd => eq_of_beq (hsame d hd)⟩
  refine ⟨by rw [← hrow, hsplit], ?_⟩
  rintro ⟨u, hu⟩
  have hhead := hnext c (by rw [← hu]; rfl)
  rw [beq_self_eq_true] at hhead
  cases hhead

theorem exists_opens_closes (t : Text) : ∃ u, t = opens t.opened ++ (closes t.closed ++ u) ∧
    ¬ "(" <+: closes t.closed ++ u ∧ ¬ ")" <+: u := by
  obtain ⟨ht, hopen⟩ := replicate_append_dropWhile (CodePoint.ofChar '(') t
  obtain ⟨hclosed, hclose⟩ := replicate_append_dropWhile (CodePoint.ofChar ')')
    (t.dropWhile (· == CodePoint.ofChar '('))
  rw [← hclosed] at ht hopen
  exact ⟨_, ht.symm, hopen, hclose⟩

theorem drop_opens_closes {m k : Nat} (hmk : m ≤ k) (u : Text) :
    (opens m ++ (closes k ++ u)).drop (2 * m) = closes (k - m) ++ u := by
  have hopens : (opens m).length = m := List.length_replicate
  have hcloses : (closes k).drop m = closes (k - m) := List.drop_replicate
  have hlength : m ≤ (closes k).length := by
    rw [closes, List.length_replicate]
    exact hmk
  have htwice : 2 * m = (opens m).length + m := by omega
  rw [htwice, List.drop_length_add_append, List.drop_append_of_le_length hlength, hcloses]

end Text

open Text

namespace Rule

variable {p : Rule} {opening closing v : Value} {n : Int} {t u : Text}

/-- The second item of the first one, and one more. -/
def innerPlusOne : Callback := .compose [.get [0, 1], .add (.int 1)]

theorem innerPlusOne_map (v w : Value) (n : Int) :
    innerPlusOne.map (.tuple [.tuple [v, .int n], w]) = pure (.int (n + 1)) := rfl

/-- One level of the recursion: what `p` counts in parentheses and one more, or zero. -/
def depthLevel (opening closing : Value) (p : Rule) : Rule :=
  (((((literal (.text "(") opening).seq p).seq (literal (.text ")") closing)).map
    innerPlusOne.map).alt (always (.int 0))).map Value.foldBranch

theorem depthLevel_closed (h : p (.text t) = pure (.success (.text (")" ++ u)) (.int n))) :
    depthLevel opening closing p (.text ("(" ++ t)) =
      pure (.success (.text u) (.int (n + 1))) :=
  foldedAlt_left (map_of_success
    (seq_of_success (seq_of_success (literal_text_append _ t) h) (literal_text_append _ u))
    (innerPlusOne_map _ _ n))

theorem depthLevel_unclosed (h : p (.text t) = pure (.success (.text u) v))
    (hu : ¬ ")" <+: u) :
    depthLevel opening closing p (.text ("(" ++ t)) =
      pure (.success (.text ("(" ++ t)) (.int 0)) :=
  foldedAlt_right (map_of_failure
    (seq_of_right (seq_of_success (literal_text_append _ t) h) (literal_text_refuses hu))) rfl

theorem depthLevel_unopened (ht : ¬ "(" <+: t) :
    depthLevel opening closing p (.text t) = pure (.success (.text t) (.int 0)) :=
  foldedAlt_right (map_of_failure (seq_of_left (seq_of_left (literal_text_refuses ht)))) rfl

/-- What is counted at the beginning of a row of opening and closing parentheses. -/
def CountsDepth (p : Rule) (m k : Nat) (u : Text) : Prop :=
  p (.text (opens m ++ (closes k ++ u))) =
    pure (if m ≤ k then .success (.text (closes (k - m) ++ u)) (.int m)
      else .success (.text (opens m ++ (closes k ++ u))) (.int 0))

theorem countsDepth_zero {k : Nat} (hopen : ¬ "(" <+: closes k ++ u) :
    (depthLevel opening closing p).CountsDepth 0 k u := by
  rw [CountsDepth, if_pos (Nat.zero_le k)]
  exact depthLevel_unopened hopen

/-- A level that counts one parenthesis more. It finds the one that closes its own only
if the level inside has found all of its own and has left one. -/
theorem CountsDepth.succ {m k : Nat} (hp : p.CountsDepth m k u) (hclose : ¬ ")" <+: u) :
    (depthLevel opening closing p).CountsDepth (m + 1) k u := by
  rw [CountsDepth] at hp ⊢
  rw [opens_succ, List.append_assoc]
  by_cases hmk : m + 1 ≤ k
  · obtain ⟨j, rfl⟩ := Nat.exists_eq_add_of_le hmk
    have hleft : m + 1 + j - m = j + 1 := by omega
    rw [if_pos (by omega), hleft, closes_succ, List.append_assoc] at hp
    rw [if_pos hmk, depthLevel_closed hp, Nat.add_sub_cancel_left]
    rfl
  · rw [if_neg hmk]
    by_cases hinner : m ≤ k
    · obtain rfl : m = k := by omega
      rw [if_pos hinner, Nat.sub_self] at hp
      exact depthLevel_unclosed hp hclose
    · -- The level inside has rewound to a parenthesis that opens.
      have hrewound : ¬ ")" <+: opens m ++ (closes k ++ u) := by
        obtain ⟨m, rfl⟩ := Nat.exists_eq_succ_of_ne_zero (by omega : m ≠ 0)
        rintro ⟨w, hw⟩
        exact absurd (List.cons.inj hw).1 (by decide)
      rw [if_neg hinner] at hp
      exact depthLevel_unclosed hp hrewound

end Rule

namespace Grammar

variable (opening closing : Value)

/-- What the given grammar counts in parentheses and one more, or zero. -/
def depthOrZero (g : Grammar) : Grammar :=
  wrap (.map .foldBranch) (join .alt
    (wrap (.map Rule.innerPlusOne) (join .seq
      (join .seq (leaf (.literal (.text "(") opening)) g) (leaf (.literal (.text ")") closing))))
    (leaf (.always (.int 0))))

/-- The depth of balanced parentheses, with an error for each of them that may be missing. -/
def nestingDepth : Grammar := recursive "depth" (depthOrZero opening closing (ref "depth"))

theorem run_depthOrZero (depth : Nat) (g : Grammar) :
    (depthOrZero opening closing g).run depth =
      Rule.depthLevel opening closing (g.run depth) := by
  rw [depthOrZero, run_wrap, run_join, run_wrap, run_join, run_join, run_leaf, run_leaf, run_leaf]
  rfl

/-- One more call is one more level. -/
theorem run_nestingDepth_succ (depth : Nat) : ∃ opening' closing',
    (nestingDepth opening closing).run (depth + 1) =
      Rule.depthLevel opening' closing' ((nestingDepth opening closing).run depth) := by
  rw [nestingDepth, run_recursive depth]
  exact ⟨_, _, run_depthOrZero _ _ depth _⟩

/-- The depth of the calls is the number of parentheses that open. -/
theorem countsDepth_nestingDepth {k : Nat} {u : Text} (hopen : ¬ "(" <+: closes k ++ u)
    (hclose : ¬ ")" <+: u) (m : Nat) :
    ((nestingDepth opening closing).run (m + 1)).CountsDepth m k u := by
  induction m with
  | zero =>
    obtain ⟨opening', closing', hlevel⟩ := run_nestingDepth_succ opening closing 0
    rw [hlevel]
    exact Rule.countsDepth_zero hopen
  | succ m ih =>
    obtain ⟨opening', closing', hlevel⟩ := run_nestingDepth_succ opening closing (m + 1)
    rw [hlevel]
    exact ih.succ hclose

/-- On every text the grammar outputs a depth. It is the number of parentheses that open
at the beginning, and as many that close are consumed with them, if so many follow at
once. Otherwise it is zero, and nothing is consumed. -/
theorem ends_nestingDepth (made : Nat) (input : Text) :
    (nestingDepth opening closing).Ends (.text input) made ⟨[], made, .ok
      (if input.opened ≤ input.closed then
        .success (.text (input.drop (2 * input.opened))) (.int input.opened)
      else .success (.text input) (.int 0))⟩ := by
  obtain ⟨u, hinput, hopen, hclose⟩ := input.exists_opens_closes
  have hcounts := countsDepth_nestingDepth opening closing hopen hclose input.opened
  rw [Rule.CountsDepth, ← hinput] at hcounts
  refine Ends.of_run (d := input.opened + 1) ?_ nofun
  rw [hcounts]
  by_cases hmk : input.opened ≤ input.closed
  · have hdrop := drop_opens_closes hmk u
    rw [← hinput] at hdrop
    rw [if_pos hmk, if_pos hmk, hdrop]
    rfl
  · rw [if_neg hmk, if_neg hmk]
    rfl

example : Text.opened "(()" = 2 ∧ Text.closed "(()" = 1 := by decide

end Grammar

end ParserCombinators
