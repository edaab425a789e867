import Mathlib
import StraightLine.Proofs.Action

/-!
# Two runs side by side

What two programs have in common is said of two actions at once: from related states they both
succeed, with related results, or they both fail, with related errors, and the states they leave are
related again. This is the relational counterpart of `Action.Ends`, and a sequence has it if its
parts do. So two definitions that follow the same steps are compared step by step.

The same for observers: two observers are alike if related events are related actions, and then they
are alike over whole lists of events.

## Main definitions

* `BothEnd` — two results, both successes or both errors
* `Action.Alike` — two actions, from all related states
* `Observer.Alike` — two observers, for all related events

## Main results

* `Action.Alike.bind` — two sequences, step by step
* `Observer.Alike.both`, `Observer.Alike.noting`, `Observer.Alike.deliver`
-/

namespace StraightLine

variable {σ τ ε δ ε' δ' α β α' β' : Type}

/-- Two successes with results that `Q` relates, or two errors that `E` relates. -/
inductive BothEnd (E : ε → δ → Prop) (Q : α → β → Prop) : Except ε α → Except δ β → Prop where
  | ok {a : α} {b : β} (related : Q a b) : BothEnd E Q (.ok a) (.ok b)
  | error {e : ε} {d : δ} (related : E e d) : BothEnd E Q (.error e) (.error d)

namespace BothEnd

variable {E : ε → δ → Prop} {E' : ε' → δ' → Prop} {Q : α → β → Prop} {Q' : α' → β' → Prop}
  {x : Except ε α} {y : Except δ β}

theorem mapError (h : BothEnd E Q x y) {f : ε → ε'} {g : δ → δ'}
    (hE : ∀ e d, E e d → E' (f e) (g d)) : BothEnd E' Q (x.mapError f) (y.mapError g) := by
  cases h with
  | ok hq => exact .ok hq
  | error he => exact .error (hE _ _ he)

/-- What goes on from related successes is compared from there. -/
theorem bind (h : BothEnd E Q x y) {f : α → Except ε α'} {g : β → Except δ β'}
    (hfg : ∀ a b, Q a b → BothEnd E Q' (f a) (g b)) : BothEnd E Q' (x >>= f) (y >>= g) := by
  cases h with
  | ok hq => exact hfg _ _ hq
  | error he => exact .error he

end BothEnd

namespace Action

/-- From states that `R` relates, both actions end alike and leave related states. -/
def Alike (R : σ → τ → Prop) (E : ε → δ → Prop) (Q : α → β → Prop) (x : Action σ ε α)
    (y : Action τ δ β) : Prop :=
  ∀ ⦃s : σ⦄ ⦃t : τ⦄, R s t →
    BothEnd E Q (x.run s).1 (y.run t).1 ∧ R (x.run s).2 (y.run t).2

namespace Alike

variable {R : σ → τ → Prop} {E : ε → δ → Prop} {E' : ε' → δ' → Prop} {P : α → β → Prop}
  {Q : α' → β' → Prop}

theorem pure {a : α} {b : β} (h : P a b) :
    Alike R E P (Pure.pure a : Action σ ε α) (Pure.pure b : Action τ δ β) :=
  fun _ _ hst => ⟨.ok h, hst⟩

theorem fail {e : ε} {d : δ} (h : E e d) :
    Alike R E P (Action.fail e : Action σ ε α) (Action.fail d : Action τ δ β) :=
  fun _ _ hst => ⟨.error h, hst⟩

theorem modify {f : σ → σ} {g : τ → τ} (h : ∀ s t, R s t → R (f s) (g t)) :
    Alike R E Eq (Action.modify f : Action σ ε Unit) (Action.modify g : Action τ δ Unit) :=
  fun s t hst => ⟨.ok rfl, h s t hst⟩

theorem inspect {f : σ → α} {g : τ → β} (h : ∀ s t, R s t → P (f s) (g t)) :
    Alike R E P (Action.inspect f : Action σ ε α) (Action.inspect g : Action τ δ β) :=
  fun s t hst => ⟨.ok (h s t hst), hst⟩

/-- Two sequences are alike if what comes first is, and what follows related results is. -/
theorem bind {x : Action σ ε α} {y : Action τ δ β} {f : α → Action σ ε α'}
    {g : β → Action τ δ β'} (hxy : Alike R E P x y)
    (hfg : ∀ a b, P a b → Alike R E Q (f a) (g b)) : Alike R E Q (x >>= f) (y >>= g) := by
  intro s t hst
  obtain ⟨hend, hstates⟩ := hxy hst
  rcases hx : x.run s with ⟨e | a, s'⟩ <;> rcases hy : y.run t with ⟨d | b, t'⟩
  all_goals rw [hx, hy] at hend hstates
  · rw [run_bind_of_error hx, run_bind_of_error hy]
    cases hend with
    | error he => exact ⟨.error he, hstates⟩
  · cases hend
  · cases hend
  · rw [run_bind_of_ok hx, run_bind_of_ok hy]
    cases hend with
    | ok hab => exact hfg a b hab hstates

theorem mapError {x : Action σ ε α} {y : Action τ δ β} {f : ε → ε'} {g : δ → δ'}
    (hxy : Alike R E P x y) (h : ∀ e d, E e d → E' (f e) (g d)) :
    Alike R E' P (x.mapError f) (y.mapError g) := by
  intro s t hst
  obtain ⟨hend, hstates⟩ := hxy hst
  rw [run_mapError, run_mapError]
  exact ⟨hend.mapError h, hstates⟩

end Alike

end Action

namespace Observer

/-- Related events are related actions. -/
def Alike (F : Event → Event → Prop) (R : σ → τ → Prop) (E : ε → δ → Prop) (o : Observer σ ε)
    (o' : Observer τ δ) : Prop :=
  ∀ ⦃e e' : Event⦄, F e e' → Action.Alike R E Eq (o.notify e) (o'.notify e')

namespace Alike

variable {F : Event → Event → Prop} {R : σ → τ → Prop} {E : ε → δ → Prop} {o p : Observer σ ε}
  {o' p' : Observer τ δ}

theorem both (ho : Alike F R E o o') (hp : Alike F R E p p') :
    Alike F R E (o.both p) (o'.both p') :=
  fun _ _ he => (ho he).bind fun _ _ _ => hp he

theorem noting {note : Event → σ → σ} {note' : Event → τ → τ} (ho : Alike F R E o o')
    (hnote : ∀ e e' s t, R s t → R (note e s) (note' e' t)) :
    Alike F R E (o.noting note) (o'.noting note') :=
  fun e e' he => (Action.Alike.modify (hnote e e')).bind fun _ _ _ => ho he

theorem deliver (ho : Alike F R E o o') {es es' : List Event} (h : List.Forall₂ F es es') :
    Action.Alike R E Eq (o.deliver es) (o'.deliver es') := by
  induction h with
  | nil => exact .pure rfl
  | cons he _ ih => exact (ho he).bind fun _ _ _ => ih

end Alike

end Observer

end StraightLine
