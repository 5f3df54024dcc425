import ParserCombinators.Fault

/-!
A run: what a computation lets the outside see while it goes on, and how it
ends. Events come in the order in which they happen, and those before a fault
stay. A run is also told how many parsers have been made before it, and tells
how many have been made in the end, so that every parser that is made gets an
identity of its own.
-/

namespace ParserCombinators

inductive Event
  /-- A line for the log. -/
  | log (line : Text)
  /-- A counted parser is called. -/
  | call (id : Text) (input : Value)

/-- What a run has left behind: its events, the number of parsers made until
its end, and its result. -/
@[ext]
structure Trace (α : Type) where
  events : List Event
  made : Nat
  result : Except Fault α

/-- A computation, given the number of parsers made before it. -/
def Run (α : Type) := Nat → Trace α

namespace Run

variable {α β : Type}

def bind (r : Run α) (f : α → Run β) : Run β := fun made =>
  let t := r made
  match t.result with
  | .ok a =>
    let u := f a t.made
    ⟨t.events ++ u.events, u.made, u.result⟩
  | .error e => ⟨t.events, t.made, .error e⟩

instance : Monad Run where
  pure a := fun made => ⟨[], made, .ok a⟩
  bind := Run.bind

def fail (e : Fault) : Run α := fun made => ⟨[], made, .error e⟩

def emit (event : Event) : Run Unit := fun made => ⟨[event], made, .ok ()⟩

def log (line : Text) : Run Unit := emit (.log line)

/-- The identity for a parser that is made now. -/
def newIdentity : Run Identity := fun made => ⟨[], made + 1, .ok (.made made)⟩

def ofOption (e : Fault) : Option α → Run α
  | some a => pure a
  | none => fail e

/-- What a run leaves behind that nothing has been made before. -/
def trace (r : Run α) : Trace α := r 0

@[ext]
theorem ext {r s : Run α} (h : ∀ made, r made = s made) : r = s := funext h

theorem pure_apply (a : α) (made : Nat) : (pure a : Run α) made = ⟨[], made, .ok a⟩ := rfl

theorem bind_apply_ok {r : Run α} {made : Nat} {events : List Event} {made' : Nat} {a : α}
    (h : r made = ⟨events, made', .ok a⟩) (f : α → Run β) :
    (r >>= f) made = ⟨events ++ (f a made').events, (f a made').made, (f a made').result⟩ := by
  change Run.bind r f made = _
  simp [Run.bind, h]

theorem bind_apply_error {r : Run α} {made : Nat} {events : List Event} {made' : Nat} {e : Fault}
    (h : r made = ⟨events, made', .error e⟩) (f : α → Run β) :
    (r >>= f) made = ⟨events, made', .error e⟩ := by
  change Run.bind r f made = _
  simp [Run.bind, h]

theorem bind_pure_right (r : Run α) : Run.bind r pure = r := by
  ext1 made
  rcases h : r made with ⟨events, made', e | a⟩ <;> simp [Run.bind, h, pure_apply]

theorem bind_bind {γ : Type} (r : Run α) (f : α → Run β) (g : β → Run γ) :
    Run.bind (Run.bind r f) g = Run.bind r fun a => Run.bind (f a) g := by
  ext1 made
  rcases h : r made with ⟨events, made', e | a⟩
  · simp [Run.bind, h]
  · rcases k : f a made' with ⟨events', made'', e | b⟩ <;> simp [Run.bind, h, k]

instance : LawfulMonad Run :=
  LawfulMonad.mk' Run (fun r => bind_pure_right r) (fun _ _ => rfl) fun r f g => bind_bind r f g

end Run

end ParserCombinators
