import StraightLine.Grammar.Observer

/-!
# What a sequence of actions comes down to

An action after another succeeds exactly when the first succeeds and the second succeeds from the
state that the first one left. Everything that is proved about a `do` block opens it with that
equivalence, from the front, and then speaks about the states in between.

An action that fails keeps its state as well, so what is true afterwards has two sides.
`Action.Ends` gives both, and a sequence has what its parts have.

The same for observers: telling one a list of events is telling it the front part and, if nothing
was refused, the rest. An observer that refuses nothing has a state after every list of events, and
the recorder's is the list itself.

## Main definitions

* `Action.Ends` — what is true behind an action that succeeds, and behind one that fails
* `Observer.NeverRefuses` — the observer accepts every event in every state

## Main results

* `Action.run_bind_eq_ok` — success of a sequence, step by step
* `Action.bind_assoc` — sequences may be regrouped
* `Action.Ends.bind` — both ends of a sequence, step by step
* `Observer.run_deliver_append` — events are delivered piece by piece
* `Observer.NeverRefuses.run_deliver`, `Observer.run_deliver_recorder`
-/

namespace StraightLine

namespace Action

variable {σ ε δ α β : Type} {s s' : σ}

/-- A sequence succeeds exactly when each of its two parts does, the second from the state that the
first one left. -/
theorem run_bind_eq_ok {x : Action σ ε α} {f : α → Action σ ε β} {b : β} :
    (x >>= f).run s = (.ok b, s') ↔ ∃ a t, x.run s = (.ok a, t) ∧ (f a).run t = (.ok b, s') := by
  rw [run_bind]
  constructor
  · intro h
    split at h
    · next a t hx => exact ⟨a, t, hx, h⟩
    · cases h
  · rintro ⟨a, t, hx, hf⟩
    rw [hx]
    exact hf

/-- Behind an action that succeeded, the rest runs from the state it left. -/
theorem run_bind_of_ok {x : Action σ ε α} {t : σ} {a : α} (h : x.run s = (.ok a, t))
    (f : α → Action σ ε β) : (x >>= f).run s = (f a).run t := by
  rw [run_bind, h]

/-- Behind an action that failed, nothing runs. -/
theorem run_bind_of_error {x : Action σ ε α} {t : σ} {e : ε} (h : x.run s = (.error e, t))
    (f : α → Action σ ε β) : (x >>= f).run s = (.error e, t) := by
  rw [run_bind, h]

/-- Sequences may be regrouped. -/
theorem bind_assoc {γ : Type} (x : Action σ ε α) (f : α → Action σ ε β) (g : β → Action σ ε γ) :
    x >>= f >>= g = x >>= fun a => f a >>= g := by
  funext s
  change (x >>= f >>= g).run s = (x >>= fun a => f a >>= g).run s
  rcases h : x.run s with ⟨e | a, s'⟩
  · rw [run_bind_of_error (run_bind_of_error h f), run_bind_of_error h]
  · rw [run_bind_of_ok h, run_bind, run_bind_of_ok h, ← run_bind]

theorem bind_pure (x : Action σ ε α) : x >>= pure = x := by
  funext s
  change (x >>= pure).run s = x.run s
  rcases h : x.run s with ⟨e | a, s'⟩
  · rw [run_bind_of_error h]
  · rw [run_bind_of_ok h]
    rfl

theorem pure_bind (a : α) (f : α → Action σ ε β) : pure a >>= f = f a :=
  rfl

/-- What is looked up and not used need not be looked up. -/
theorem inspect_bind_const (f : σ → α) (x : Action σ ε β) : (inspect f >>= fun _ => x) = x :=
  rfl

theorem run_pure_eq_ok {a b : α} :
    (pure a : Action σ ε α).run s = (.ok b, s') ↔ a = b ∧ s = s' := by
  simp

theorem run_modify_eq_ok {f : σ → σ} {u : Unit} :
    (modify f : Action σ ε Unit).run s = (.ok u, s') ↔ f s = s' := by
  simp

theorem run_inspect_eq_ok {f : σ → α} {a : α} :
    (inspect f : Action σ ε α).run s = (.ok a, s') ↔ f s = a ∧ s = s' := by
  simp

/-- Giving an error another name makes no failure a success. -/
theorem run_mapError_eq_ok {f : ε → δ} {x : Action σ ε α} {a : α} :
    (x.mapError f).run s = (.ok a, s') ↔ x.run s = (.ok a, s') := by
  rw [run_mapError]
  rcases x.run s with ⟨err | b, t⟩
  · have herr : (Except.error err : Except ε α).mapError f = .error (f err) := rfl
    simp [herr]
  · have hok : (Except.ok b : Except ε α).mapError f = .ok b := rfl
    simp [hok]

/-- A result becomes a success exactly when it is one. -/
theorem run_ofExcept_mapError_eq_ok {f : δ → ε} {x : Except δ α} {a : α} :
    (ofExcept (x.mapError f) : Action σ ε α).run s = (.ok a, s') ↔ x = .ok a ∧ s = s' := by
  rcases x with err | b
  · have herr : (ofExcept ((.error err : Except δ α).mapError f) : Action σ ε α).run s =
        (.error (f err), s) := rfl
    simp [herr]
  · have hok : (ofExcept ((.ok b : Except δ α).mapError f) : Action σ ε α).run s = (.ok b, s) := rfl
    simp [hok]

/-! ### Both ends -/

/-- From the state `s`, the action succeeds where `Q` holds of its result and the state it leaves,
or fails where `E` holds. -/
def Ends (x : Action σ ε α) (s : σ) (Q : α → σ → Prop) (E : ε → σ → Prop) : Prop :=
  (∀ a s', x.run s = (.ok a, s') → Q a s') ∧ ∀ e s', x.run s = (.error e, s') → E e s'

variable {Q Q' : α → σ → Prop} {E : ε → σ → Prop}

theorem ends_of_ok {x : Action σ ε α} {a : α} (h : x.run s = (.ok a, s')) (hq : Q a s') :
    x.Ends s Q E := by
  refine ⟨fun b t hb => ?_, fun e t he => ?_⟩
  · rw [h] at hb
    cases hb
    exact hq
  · rw [h] at he
    cases he

theorem ends_of_error {x : Action σ ε α} {e : ε} (h : x.run s = (.error e, s')) (he : E e s') :
    x.Ends s Q E := by
  refine ⟨fun a t ha => ?_, fun e' t he' => ?_⟩
  · rw [h] at ha
    cases ha
  · rw [h] at he'
    cases he'
    exact he

/-- The second part of a sequence goes on from where the first one succeeded. -/
theorem Ends.bind {x : Action σ ε α} {f : α → Action σ ε β} {R : β → σ → Prop}
    (hx : x.Ends s Q E) (hf : ∀ a t, Q a t → (f a).Ends t R E) : (x >>= f).Ends s R E := by
  rcases hrun : x.run s with ⟨e | a, t⟩
  · exact ends_of_error (run_bind_of_error hrun f) (hx.2 e t hrun)
  · have hrest := hf a t (hx.1 a t hrun)
    rw [Ends, run_bind_of_ok hrun f]
    exact hrest

theorem Ends.mono {x : Action σ ε α} (hx : x.Ends s Q E) (h : ∀ a t, Q a t → Q' a t) :
    x.Ends s Q' E :=
  ⟨fun a t ht => h a t (hx.1 a t ht), hx.2⟩

end Action

namespace Observer

variable {σ ε : Type}

@[simp] theorem deliver_nil (o : Observer σ ε) : o.deliver [] = pure () :=
  rfl

theorem deliver_cons (o : Observer σ ε) (e : Event) (es : List Event) :
    o.deliver (e :: es) = (do o.notify e; o.deliver es) :=
  rfl

theorem run_deliver_singleton (o : Observer σ ε) (e : Event) (s : σ) :
    (o.deliver [e]).run s = (o.notify e).run s := by
  rw [deliver_cons, Action.run_bind]
  rcases h : (o.notify e).run s with ⟨_ | ⟨⟩, t⟩ <;> rfl

/-- Events are delivered piece by piece. -/
theorem run_deliver_append (o : Observer σ ε) (es fs : List Event) (s : σ) :
    (o.deliver (es ++ fs)).run s = (do o.deliver es; o.deliver fs).run s := by
  induction es generalizing s with
  | nil => rfl
  | cons e es ih =>
    rw [List.cons_append, deliver_cons, deliver_cons]
    rcases h : (o.notify e).run s with ⟨err | ⟨⟩, t⟩
    · rw [Action.run_bind_of_error h, Action.run_bind_of_error (Action.run_bind_of_error h _)]
    · rw [Action.run_bind_of_ok h, ih, Action.run_bind, Action.run_bind,
        Action.run_bind_of_ok h]

/-- Nothing is refused in two lists of events exactly when nothing is refused in either. -/
theorem run_deliver_append_eq_ok {o : Observer σ ε} {es fs : List Event} {s s' : σ} :
    (o.deliver (es ++ fs)).run s = (.ok (), s') ↔
      ∃ t, (o.deliver es).run s = (.ok (), t) ∧ (o.deliver fs).run t = (.ok (), s') := by
  rw [run_deliver_append, Action.run_bind_eq_ok]
  exact ⟨fun ⟨_, t, hes, hfs⟩ => ⟨t, hes, hfs⟩, fun ⟨t, hes, hfs⟩ => ⟨(), t, hes, hfs⟩⟩

/-- The same for a list and one more event. -/
theorem run_deliver_concat_eq_ok {o : Observer σ ε} {es : List Event} {e : Event} {s s' : σ} :
    (o.deliver (es ++ [e])).run s = (.ok (), s') ↔
      ∃ t, (o.deliver es).run s = (.ok (), t) ∧ (o.notify e).run t = (.ok (), s') := by
  simp only [run_deliver_append_eq_ok, run_deliver_singleton]

/-- The observer accepts every event, whatever its state. -/
def NeverRefuses (o : Observer σ ε) : Prop :=
  ∀ e s, ∃ s', (o.notify e).run s = (.ok (), s')

/-- An observer that refuses nothing is told every event. -/
theorem NeverRefuses.run_deliver {o : Observer σ ε} (h : o.NeverRefuses) (es : List Event)
    (s : σ) : ∃ s', (o.deliver es).run s = (.ok (), s') := by
  induction es generalizing s with
  | nil => exact ⟨s, rfl⟩
  | cons e es ih =>
    obtain ⟨t, ht⟩ := h e s
    obtain ⟨s', hs'⟩ := ih t
    exact ⟨s', by rw [deliver_cons, Action.run_bind_of_ok ht, hs']⟩

theorem neverRefuses_recorder : (recorder : Observer (List Event) ε).NeverRefuses :=
  fun e s => ⟨s ++ [e], rfl⟩

/-- A recorder has recorded what it was told. -/
theorem run_deliver_recorder (es seen : List Event) :
    ((recorder : Observer (List Event) ε).deliver es).run seen = (.ok (), seen ++ es) := by
  induction es generalizing seen with
  | nil => simp
  | cons e es ih =>
    have h : ((recorder : Observer (List Event) ε).notify e).run seen = (.ok (), seen ++ [e]) :=
      rfl
    rw [deliver_cons, Action.run_bind_of_ok h, ih, List.append_assoc, List.singleton_append]

end Observer

end StraightLine
