import QueryCache.Error

/-!
# Actions

An action changes a state and ends in a value or a failure. What it changed before it failed
stays changed: undoing is the work of transactions, not of actions.
-/

namespace QueryCache

/-- A change of a state that gives a value or fails. -/
def Action (σ α : Type) := σ → Except Error α × σ

namespace Action

variable {σ τ α β : Type}

/-- Gives a value and changes nothing. -/
def pure (value : α) : Action σ α := fun s => (.ok value, s)

/-- The second action runs on what the first left, unless the first failed. -/
def bind (first : Action σ α) (second : α → Action σ β) : Action σ β := fun s =>
  match first s with
  | (.ok value, s) => second value s
  | (.error e, s) => (.error e, s)

instance : Monad (Action σ) where
  pure := pure
  bind := bind

/-- Fails and changes nothing. -/
def fail (e : Error) : Action σ α := fun s => (.error e, s)

/-- Ends in a result that is known already. -/
def ofExcept (result : Except Error α) : Action σ α := fun s => (result, s)

instance : MonadLift (Except Error) (Action σ) where
  monadLift := ofExcept

/-- Runs an action and gives how it ended, so that the caller goes on either way. -/
def attempt (action : Action σ α) : Action σ (Except Error α) := fun s =>
  match action s with
  | (result, s) => (.ok result, s)

/-- The state. -/
def state : Action σ σ := fun s => (.ok s, s)

/-- Changes the state. -/
def modify (change : σ → σ) : Action σ Unit := fun s => (.ok (), change s)

/-- Runs an action on a part of a larger state. -/
def within (part : τ → σ) (put : σ → τ → τ) (action : Action σ α) : Action τ α := fun t =>
  match action (part t) with
  | (result, s) => (result, put s t)

/-- Runs actions one after the other until one fails. -/
def each (action : α → Action σ Unit) : List α → Action σ Unit
  | [] => pure ()
  | item :: items => do
      action item
      each action items

@[simp] theorem pure_apply (value : α) (s : σ) :
    (Pure.pure value : Action σ α) s = (.ok value, s) := rfl

@[simp] theorem fail_apply (e : Error) (s : σ) : (fail e : Action σ α) s = (.error e, s) := rfl

@[simp] theorem ofExcept_apply (result : Except Error α) (s : σ) :
    ofExcept result s = (result, s) := rfl

@[simp] theorem attempt_apply (action : Action σ α) (s : σ) :
    attempt action s = (.ok (action s).1, (action s).2) := rfl

theorem bind_apply (first : Action σ α) (second : α → Action σ β) (s : σ) :
    (first >>= second) s =
      match first s with
      | (.ok value, s) => second value s
      | (.error e, s) => (.error e, s) := rfl

theorem bind_of_ok {first : Action σ α} {second : α → Action σ β} {s t : σ} {value : α}
    (ok : first s = (.ok value, t)) : (first >>= second) s = second value t := by
  rw [bind_apply, ok]

theorem bind_of_error {first : Action σ α} {second : α → Action σ β} {s t : σ} {e : Error}
    (failed : first s = (.error e, t)) : (first >>= second) s = (.error e, t) := by
  rw [bind_apply, failed]

end Action

end QueryCache
