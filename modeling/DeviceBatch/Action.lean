import DeviceBatch.Error

/-!
# Actions

An action changes a state and then answers or fails. A failing action keeps what it has done to the
state before it failed: nothing is rolled back unless the action does so itself.
-/

namespace DeviceBatch

/-- A change of a state of type `σ` that answers with an `α` or fails with an error. -/
abbrev Action (σ α : Type) : Type := EStateM Error σ α

namespace Action

variable {σ τ α : Type}

/-- An action that cannot fail and answers nothing. -/
def change (f : σ → σ) : Action σ Unit := fun s => .ok () (f s)

/-- A change that may be refused; then the state stays as it is. -/
def step (f : σ → Except Error σ) : Action σ Unit := fun s =>
  match f s with
  | .ok s => .ok () s
  | .error e => .error e s

/-- The same for a change that answers. -/
def attempt (f : σ → Except Error (α × σ)) : Action σ α := fun s =>
  match f s with
  | .ok (a, s) => .ok a s
  | .error e => .error e s

/-- The answer of a computation on no state. -/
def ofExcept : Except Error α → Action σ α
  | .ok a => pure a
  | .error e => throw e

/-- If the action fails, `tidy` is applied to the state it left, and the error is passed on. -/
def orElseTidy (act : Action σ α) (tidy : σ → σ) : Action σ α := fun s =>
  match act s with
  | .ok a s => .ok a s
  | .error e s => .error e (tidy s)

/-- The same action on a part of a larger state. -/
def within (get : σ → τ) (put : τ → σ → σ) (act : Action τ α) : Action σ α :=
  fun s =>
  match act (get s) with
  | .ok a t => .ok a (put t s)
  | .error e t => .error e (put t s)

/-- The same action on the first part of a pair. -/
def onFirst (act : Action σ α) : Action (σ × τ) α := within Prod.fst (fun s p => (s, p.2)) act

/-- How an action ended, and what it left behind. -/
def outcome (act : Action σ α) (s : σ) : Except Error α × σ :=
  match act s with
  | .ok a s => (.ok a, s)
  | .error e s => (.error e, s)

end Action

end DeviceBatch
