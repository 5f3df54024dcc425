import ParserCombinators.Handle
import ParserCombinators.Proofs.Handles.Unfolding
import ParserCombinators.Proofs.Handles.WiredRuns

/-!
The life of a handle. Until it gets a definition, calling it is a fault. It keeps the
first definition that it is given. A recursive parser gives its handle a definition
when it is built, so no parser that has been built calls a handle without one.
-/

namespace ParserCombinators

open Run

namespace Grammar

/-- The grammar can be built, however many parsers have been made before. -/
def Builds (g : Grammar) : Prop := ∀ made, (g.build made).result = .ok ()

/-- The grammar has been built, and what binds its names is in it. -/
structure IsBuilt (g : Grammar) : Prop where
  build : g.build.Returns ()
  bound : ∀ y, ¬ g.Mentions False y

end Grammar

namespace Handle

/-- What can be asked of a handle: to take a parser as its definition, and to parse. -/
inductive Request
  | wire (g : Grammar) (built : g.Builds)
  | parse (input : Value)

/-- The handle after a request, and the reply if the request is a parse. -/
def serve (h : Handle) : Request → Run (Handle × Option Value)
  | .wire g _ => do
    let wired ← h.wire g
    pure (wired, none)
  | .parse input => do
    let r ← h.parse input
    pure (h, some r)

theorem parse_of_none {h : Handle} (hnone : h.target = none) :
    h.parse = fun _ => Run.fail .unwired := by
  have hgrammar : h.grammar = .ref h.name := by rw [grammar, hnone]
  rw [parse, hgrammar, Grammar.parse, Grammar.run_eq]
  rfl

/-- A handle with a definition runs it one call deeper. -/
theorem run_succ_of_some {h : Handle} {g : Grammar} (hsome : h.target = some g) (depth : Nat) :
    h.grammar.run (depth + 1) = (h.within g).run depth := by
  have hgrammar : h.grammar = .handle h.name g := by rw [grammar, hsome]
  rw [within, hgrammar]
  rfl

/-- The parser of the first wiring among requests. -/
def firstWired : List Request → Option Grammar
  | [] => none
  | .wire g _ :: _ => some g
  | .parse _ :: requests => firstWired requests

end Handle

/-- A handle in use, and how many parsers have been made so far. -/
structure Session where
  handle : Handle
  made : Nat

namespace Session

/-- What a request leaves behind. -/
def answer (s : Session) (r : Handle.Request) : Trace (Handle × Option Value) :=
  s.handle.serve r s.made

/-- The session after a request. A request that ends in a fault leaves the handle as
it has been. -/
def next (s : Session) (r : Handle.Request) : Session where
  handle := match (s.answer r).result with
    | .ok (h, _) => h
    | .error _ => s.handle
  made := (s.answer r).made

/-- The session after requests one after the other. -/
def after (s : Session) (requests : List Handle.Request) : Session := requests.foldl next s

/-- The handle has no definition: a parse is a fault and changes nothing, and a parser
is taken as the definition. -/
structure Waits (s : Session) : Prop where
  parse : ∀ input, s.answer (.parse input) = ⟨[], s.made, .error .unwired⟩
  parse_next : ∀ input, s.next (.parse input) = s
  wire : ∀ g built, (s.answer (.wire g built)).result = .ok (⟨s.handle.name, some g⟩, none)
  wire_next : ∀ g built, (s.next (.wire g built)).handle = ⟨s.handle.name, some g⟩

/-- The handle keeps to a definition: no other is taken, and the handle parses as the
definition, in which its name stands for itself. The definition runs one call deeper. -/
structure KeepsTo (s : Session) (g : Grammar) : Prop where
  target : s.handle.target = some g
  parse : ∀ input, s.answer (.parse input) =
    ((fun r => (s.handle, some r)) <$> (s.handle.within g).run (Grammar.maximalDepth - 1) input)
      s.made
  parsesAs : s.handle.grammar.ParsesAs (s.handle.within g)
  parse_next : ∀ input, (s.next (.parse input)).handle = s.handle
  wire : ∀ k built, (s.answer (.wire k built)).result = .error .alreadyWired
  wire_next : ∀ k built, (s.next (.wire k built)).handle = s.handle

section Requests

variable {s : Session} {g k : Grammar}

theorem answer_parse_of_none (h : s.handle.target = none) (input : Value) :
    s.answer (.parse input) = ⟨[], s.made, .error .unwired⟩ := by
  rw [answer, Handle.serve, Handle.parse_of_none h]
  rfl

theorem answer_wire_of_none (h : s.handle.target = none) (built : g.Builds) :
    s.answer (.wire g built) =
      ⟨(g.build s.made).events, (g.build s.made).made, .ok (⟨s.handle.name, some g⟩, none)⟩ := by
  have hbuild := eq_of_result (built s.made)
  rw [answer, Handle.serve, Handle.wire, h, bind_assoc, bind_apply_ok hbuild]
  simp [pure_apply]

theorem answer_wire_of_some (h : s.handle.target = some g) (built : k.Builds) :
    s.answer (.wire k built) =
      ⟨(k.build s.made).events, (k.build s.made).made, .error .alreadyWired⟩ := by
  have hbuild := eq_of_result (built s.made)
  rw [answer, Handle.serve, Handle.wire, h, bind_assoc, bind_apply_ok hbuild]
  refine Trace.ext (List.append_nil _) rfl rfl

theorem next_parse_handle (s : Session) (input : Value) :
    (s.next (.parse input)).handle = s.handle := by
  rcases hparse : s.handle.parse input s.made with ⟨events, made', e | r⟩
  · have hanswer : s.answer (.parse input) = ⟨events, made', .error e⟩ :=
      bind_apply_error hparse _
    rw [next, hanswer]
  · have hanswer : s.answer (.parse input) = ⟨events ++ [], made', .ok (s.handle, some r)⟩ :=
      bind_apply_ok hparse _
    rw [next, hanswer]

/-- One request: a definition that is there stays, and otherwise a wiring gives one. -/
theorem next_handle (s : Session) (r : Handle.Request) :
    (s.next r).handle = ⟨s.handle.name, s.handle.target.or (Handle.firstWired [r])⟩ := by
  cases r with
  | wire k built =>
    cases h : s.handle.target with
    | none =>
      rw [next, answer_wire_of_none h built]
      rfl
    | some g =>
      rw [next, answer_wire_of_some h built, Option.some_or, ← h]
  | parse input =>
    rw [next_parse_handle, Handle.firstWired, Handle.firstWired, Option.or_none]

/-- The handle has the definition that it was given first. -/
theorem after_handle (s : Session) (requests : List Handle.Request) :
    (s.after requests).handle =
      ⟨s.handle.name, s.handle.target.or (Handle.firstWired requests)⟩ := by
  induction requests generalizing s with
  | nil => rw [after, List.foldl_nil, Handle.firstWired, Option.or_none]
  | cons r requests ih =>
    have hfirst : Handle.firstWired (r :: requests) =
        (Handle.firstWired [r]).or (Handle.firstWired requests) := by
      cases r <;> rfl
    have hstep : s.after (r :: requests) = (s.next r).after requests := rfl
    rw [hstep, ih, next_handle, hfirst, Option.or_assoc]

theorem waits_of_none (h : s.handle.target = none) : s.Waits where
  parse := answer_parse_of_none h
  parse_next input := by rw [next, answer_parse_of_none h]
  wire g built := by rw [answer_wire_of_none h built]
  wire_next g built := by
    rw [next_handle, h]
    rfl

theorem keepsTo_of_some (h : s.handle.target = some g) : s.KeepsTo g where
  target := h
  parse input := by
    have hparse : s.handle.parse = (s.handle.within g).run (Grammar.maximalDepth - 1) :=
      Handle.run_succ_of_some h (Grammar.maximalDepth - 1)
    rw [answer, Handle.serve, hparse, map_eq_pure_bind]
  parsesAs := by
    refine Grammar.parsesAs_of_run_agrees fun d input made => ?_
    rw [Handle.run_succ_of_some h]
    exact Trace.Agrees.refl _
  parse_next := next_parse_handle s
  wire k built := by rw [answer_wire_of_some h built]
  wire_next k built := by rw [next_handle, h, Option.some_or, ← h]

end Requests

end Session

section Built

theorem Grammar.IsBuilt.isWired {g : Grammar} (hg : g.IsBuilt) : g.IsWired :=
  isWired_of_construct (Run.Returns.first hg.build) hg.bound

/-- A builder that calls its own handle calls one without a definition. -/
theorem Grammar.construct_recursiveEager (x : Text) (input : Value) (body : Grammar) :
    (recursiveEager x input body).construct = input.construct >>= fun _ =>
      (Handle.fresh x).parse input >>= fun _ => (recursive x body).construct := by
  rw [Handle.parse_of_none rfl]
  rfl

end Built

/-- Opening parentheses, the handle standing for those after the first. -/
def openings : Grammar :=
  .wrap .maybe (.join .seq (.leaf (.literal (.text "(") .none)) (.ref "self"))

end ParserCombinators
