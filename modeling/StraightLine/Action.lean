/-!
# Actions that may fail half-way

An action changes a state and gives a result or an error. Unlike an exception that undoes what was
done, an error leaves the state as the action had it when it failed: whoever goes on from there sees
every change made before.

## Main definitions

* `Action` — a state, then a result or an error and the state reached
* `Action.fail`, `Action.modify`, `Action.mapError` — building blocks beside those of a monad

## Main results

* `Action.run_bind` — an action after another runs from the state the first one reached, and only if
  it succeeded
-/

namespace StraightLine

/-- A change of a state `σ` that gives an `α` or fails with an `ε`; the state is kept either way. -/
def Action (σ ε α : Type) : Type :=
  σ → Except ε α × σ

namespace Action

variable {σ ε δ α β : Type}

/-- Run an action from a state. -/
def run (x : Action σ ε α) (s : σ) : Except ε α × σ :=
  x s

instance : Monad (Action σ ε) where
  pure a := fun s => (.ok a, s)
  bind x f := fun s =>
    match x.run s with
    | (.ok a, s') => (f a).run s'
    | (.error e, s') => (.error e, s')

/-- Fail, changing nothing. -/
def fail (e : ε) : Action σ ε α :=
  fun s => (.error e, s)

/-- Succeed or fail as given, changing nothing. -/
def ofExcept : Except ε α → Action σ ε α
  | .ok a => pure a
  | .error e => fail e

/-- Change the state. -/
def modify (f : σ → σ) : Action σ ε Unit :=
  fun s => (.ok (), f s)

/-- Look at the state. -/
def inspect (f : σ → α) : Action σ ε α :=
  fun s => (.ok (f s), s)

/-- Fail with another error where the action fails. -/
def mapError (f : ε → δ) (x : Action σ ε α) : Action σ δ α :=
  fun s =>
    match x.run s with
    | (.ok a, s') => (.ok a, s')
    | (.error e, s') => (.error (f e), s')

@[simp] theorem run_pure (a : α) (s : σ) : (pure a : Action σ ε α).run s = (.ok a, s) :=
  rfl

theorem run_bind (x : Action σ ε α) (f : α → Action σ ε β) (s : σ) :
    (x >>= f).run s =
      match x.run s with
      | (.ok a, s') => (f a).run s'
      | (.error e, s') => (.error e, s') :=
  rfl

@[simp] theorem run_fail (e : ε) (s : σ) : (fail e : Action σ ε α).run s = (.error e, s) :=
  rfl

@[simp] theorem run_modify (f : σ → σ) (s : σ) :
    (modify f : Action σ ε Unit).run s = (.ok (), f s) :=
  rfl

@[simp] theorem run_inspect (f : σ → α) (s : σ) :
    (inspect f : Action σ ε α).run s = (.ok (f s), s) :=
  rfl

theorem run_mapError (f : ε → δ) (x : Action σ ε α) (s : σ) :
    (x.mapError f).run s = ((x.run s).1.mapError f, (x.run s).2) := by
  have h : (x.mapError f).run s =
      match x.run s with
      | (.ok a, s') => (.ok a, s')
      | (.error e, s') => (.error (f e), s') := rfl
  rw [h]
  rcases x.run s with ⟨_ | _, s'⟩ <;> rfl

end Action

end StraightLine
