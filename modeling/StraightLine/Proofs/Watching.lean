import StraightLine.Grammar.Recorder
import StraightLine.Proofs.Reading

/-!
# Those who watch a parse

An observer cannot steer a parse. Whatever it does with its own state, it is told the events of the
parse in their order, up to and with the first that it refuses. If it refuses none, the outcome is
that of a parse that is only recorded.

For two observers that share no state, what the pair does follows from what each would do alone.
The first is told each event before the second. So if both would refuse, the earlier refusal wins,
and of two refusals of the same event the one of the first observer.

## Main definitions

* `Observer.Accepts`, `Observer.RefusesAt` — what an observer makes of a list of events
* `Observer.logged` — an observer together with all that it was told

## Main results

* `Observer.accepts_or_refuses`, `Observer.RefusesAt.unique` — there is at most one first refusal
* `Observer.Accepts.run_parse`, `Observer.RefusesAt.run_parse` — a parse under the eyes of an
  observer
* `Observer.run_parse_logged` — writing down what an observer is told changes nothing
* `Observer.RefusesAt.pair_left`, `Observer.RefusesAt.pair_right` — two observers
* `parse_tells_observers` — no observer steers a parse
-/

namespace StraightLine

namespace Observer

variable {σ τ ε : Type}

/-- From `s`, the observer accepts events one after the other, and `s'` is its state behind them. -/
inductive Accepts (o : Observer σ ε) : σ → List Event → σ → Prop where
  | nil (s : σ) : Accepts o s [] s
  | cons {s s₁ s' : σ} {e : Event} {es : List Event} (first : (o.notify e).run s = (.ok (), s₁))
      (others : Accepts o s₁ es s') : Accepts o s (e :: es) s'

/-- From `s`, the first event that the observer refuses is number `i`, counted from zero. It refuses
it with `err`, and `s'` is its state then. -/
inductive RefusesAt (o : Observer σ ε) : σ → List Event → Nat → ε → σ → Prop where
  | here {s s' : σ} {e : Event} {err : ε} (es : List Event)
      (refused : (o.notify e).run s = (.error err, s')) : RefusesAt o s (e :: es) 0 err s'
  | later {s s₁ s' : σ} {e : Event} {es : List Event} {i : Nat} {err : ε}
      (first : (o.notify e).run s = (.ok (), s₁)) (others : RefusesAt o s₁ es i err s') :
      RefusesAt o s (e :: es) (i + 1) err s'

/-- An observer together with all that it was told. -/
def logged (o : Observer σ ε) : Observer (σ × List Event) ε :=
  o.onFirst.noting fun e s => (s.1, s.2 ++ [e])

variable {o : Observer σ ε} {s s' : σ} {es : List Event} {i j : Nat} {err : ε}

/-! ## One observer -/

/-- An observer accepts all events, or there is a first that it refuses. -/
theorem accepts_or_refuses (o : Observer σ ε) (s : σ) (es : List Event) :
    (∃ s', o.Accepts s es s') ∨ ∃ i err s', o.RefusesAt s es i err s' := by
  induction es generalizing s with
  | nil => exact .inl ⟨s, .nil s⟩
  | cons e es ih =>
    rcases hnotify : (o.notify e).run s with ⟨err | ⟨⟩, s₁⟩
    · exact .inr ⟨0, err, s₁, .here es hnotify⟩
    · rcases ih s₁ with ⟨s', haccepts⟩ | ⟨i, err, s', hrefuses⟩
      · exact .inl ⟨s', .cons hnotify haccepts⟩
      · exact .inr ⟨i + 1, err, s', .later hnotify hrefuses⟩

theorem RefusesAt.unique {err' : ε} {s'' : σ} (h : o.RefusesAt s es i err s')
    (h' : o.RefusesAt s es j err' s'') : i = j := by
  induction h generalizing j with
  | here es refused =>
    cases h' with
    | here _ refused' => rfl
    | later first' _ => cases refused.symm.trans first'
  | later first _ ih =>
    cases h' with
    | here _ refused' => cases first.symm.trans refused'
    | later first' others' =>
      cases first.symm.trans first'
      rw [ih others']

/-- What comes before the first refusal is accepted. -/
theorem RefusesAt.accepts_take (h : o.RefusesAt s es j err s') (hij : i ≤ j) :
    ∃ t, o.Accepts s (es.take i) t := by
  induction h generalizing i with
  | here es refused =>
    obtain rfl : i = 0 := by omega
    exact ⟨_, .nil _⟩
  | later first _ ih =>
    cases i with
    | zero => exact ⟨_, .nil _⟩
    | succ i =>
      obtain ⟨t, haccepts⟩ := ih (i := i) (by omega)
      exact ⟨t, .cons first haccepts⟩

theorem Accepts.accepts_take (h : o.Accepts s es s') (i : Nat) :
    ∃ t, o.Accepts s (es.take i) t := by
  induction h generalizing i with
  | nil s => exact ⟨s, by rw [List.take_nil]; exact .nil s⟩
  | cons first _ ih =>
    cases i with
    | zero => exact ⟨_, .nil _⟩
    | succ i =>
      obtain ⟨t, haccepts⟩ := ih i
      exact ⟨t, .cons first haccepts⟩

/-- An observer that refuses no event before number `i` accepts all of these. -/
theorem exists_accepts_take (h : ∀ j err s', o.RefusesAt s es j err s' → i ≤ j) :
    ∃ t, o.Accepts s (es.take i) t := by
  rcases o.accepts_or_refuses s es with ⟨s', haccepts⟩ | ⟨j, err, s', hrefuses⟩
  · exact haccepts.accepts_take i
  · exact hrefuses.accepts_take (h j err s' hrefuses)

theorem NeverRefuses.exists_accepts (h : o.NeverRefuses) (s : σ) (es : List Event) :
    ∃ s', o.Accepts s es s' := by
  induction es generalizing s with
  | nil => exact ⟨s, .nil s⟩
  | cons e es ih =>
    obtain ⟨s₁, hnotify⟩ := h e s
    obtain ⟨s', haccepts⟩ := ih s₁
    exact ⟨s', .cons hnotify haccepts⟩

/-! ## A parse under the eyes of an observer -/

theorem Accepts.run_deliver (h : o.Accepts s es s') : (o.deliver es).run s = (.ok (), s') := by
  induction h with
  | nil s => rfl
  | cons first _ ih => rw [deliver_cons, Action.run_bind_of_ok first, ih]

theorem RefusesAt.run_deliver (h : o.RefusesAt s es i err s') :
    (o.deliver es).run s = (.error err, s') := by
  induction h with
  | here es refused => rw [deliver_cons, Action.run_bind_of_error refused]
  | later first _ ih => rw [deliver_cons, Action.run_bind_of_ok first, ih]

section Parse

variable {tokens : List Token} {r : Except (ParseError ε) Unit} {ev : List Event}

/-- A recording has the events and the outcome of a parse that nobody watches. -/
theorem run_parse_recorder (tokens : List Token) :
    (parse (recorder : Observer (List Event) ε) tokens).run [] =
      (Reading.start.outcomeFrom tokens, Reading.start.eventsFrom tokens) := by
  rw [parse, Reading.run_parseFrom, run_deliver_recorder, List.nil_append]

theorem Accepts.run_parse (h : o.Accepts s ev s')
    (hrecorded : (parse (recorder : Observer (List Event) ε) tokens).run [] = (r, ev)) :
    (parse o tokens).run s = (r, s') := by
  rw [run_parse_recorder] at hrecorded
  cases hrecorded
  rw [parse, Reading.run_parseFrom, h.run_deliver]

theorem RefusesAt.run_parse (h : o.RefusesAt s ev i err s')
    (hrecorded : (parse (recorder : Observer (List Event) ε) tokens).run [] = (r, ev)) :
    (parse o tokens).run s = (.error (.action err), s') := by
  rw [run_parse_recorder] at hrecorded
  cases hrecorded
  rw [parse, Reading.run_parseFrom, h.run_deliver]

end Parse

/-! ## What an observer was told -/

theorem run_notify_logged (o : Observer σ ε) (e : Event) (s : σ) (seen : List Event) :
    (o.logged.notify e).run (s, seen) =
      (((o.notify e).run s).1, ((o.notify e).run s).2, seen ++ [e]) :=
  rfl

theorem Accepts.logged (h : o.Accepts s es s') (seen : List Event) :
    o.logged.Accepts (s, seen) es (s', seen ++ es) := by
  induction h generalizing seen with
  | nil s =>
    rw [List.append_nil]
    exact .nil _
  | @cons s s₁ s' e es first _ ih =>
    have hnotify : (o.logged.notify e).run (s, seen) = (.ok (), s₁, seen ++ [e]) := by
      rw [run_notify_logged, first]
    have hothers := ih (seen ++ [e])
    rw [List.append_assoc, List.singleton_append] at hothers
    exact .cons hnotify hothers

theorem RefusesAt.logged (h : o.RefusesAt s es i err s') (seen : List Event) :
    o.logged.RefusesAt (s, seen) es i err (s', seen ++ es.take (i + 1)) := by
  induction h generalizing seen with
  | @here s s' e err es refused =>
    have hnotify : (o.logged.notify e).run (s, seen) = (.error err, s', seen ++ [e]) := by
      rw [run_notify_logged, refused]
    exact .here es hnotify
  | @later s s₁ s' e es i err first _ ih =>
    have hnotify : (o.logged.notify e).run (s, seen) = (.ok (), s₁, seen ++ [e]) := by
      rw [run_notify_logged, first]
    have hothers := ih (seen ++ [e])
    rw [List.append_assoc, List.singleton_append] at hothers
    exact .later hnotify hothers

/-- An observer is told a front part of the events, and all of them if it refuses none. -/
theorem run_deliver_logged (o : Observer σ ε) (s : σ) (es seen : List Event) :
    ∃ told, told <+: es ∧ (((o.deliver es).run s).1 = .ok () → told = es) ∧
      (o.logged.deliver es).run (s, seen) =
        (((o.deliver es).run s).1, ((o.deliver es).run s).2, seen ++ told) := by
  rcases o.accepts_or_refuses s es with ⟨s', haccepts⟩ | ⟨i, err, s', hrefuses⟩
  · rw [haccepts.run_deliver, (haccepts.logged seen).run_deliver]
    exact ⟨es, List.prefix_refl es, fun _ => rfl, rfl⟩
  · rw [hrefuses.run_deliver, (hrefuses.logged seen).run_deliver]
    exact ⟨es.take (i + 1), List.take_prefix .., by simp, rfl⟩

/-- A parse is the same whether or not it is written down what its observer is told. -/
theorem run_parse_logged (o : Observer σ ε) (s : σ) (tokens : List Token) :
    ∃ told, told <+: Reading.start.eventsFrom tokens ∧
      (((parse o tokens).run s).1 = .ok () → told = Reading.start.eventsFrom tokens) ∧
      (parse o.logged tokens).run (s, []) =
        (((parse o tokens).run s).1, ((parse o tokens).run s).2, told) := by
  obtain ⟨told, htold, hall, hrun⟩ := o.run_deliver_logged s (Reading.start.eventsFrom tokens) []
  refine ⟨told, htold, fun hok => hall ?_, ?_⟩
  · have hparse : (parse o tokens).run s = (.ok (), ((parse o tokens).run s).2) := Prod.ext hok rfl
    rw [(Reading.run_parseFrom_eq_ok.mp hparse).1]
  · rw [parse, parse, Reading.run_parseFrom, Reading.run_parseFrom, hrun]
    rcases (o.deliver (Reading.start.eventsFrom tokens)).run s with ⟨err | ⟨⟩, s'⟩ <;> rfl

/-! ## Two observers -/

section Pair

variable {a : Observer σ ε} {b : Observer τ ε} {t t' : τ}

/-- The second observer is told what the first has accepted. -/
theorem run_notify_pair_of_ok {e : Event} (h : (a.notify e).run s = (.ok (), s')) (t : τ) :
    ((a.pair b).notify e).run (s, t) = (((b.notify e).run t).1, s', ((b.notify e).run t).2) := by
  have hfirst : ((a.onFirst : Observer (σ × τ) ε).notify e).run (s, t) = (.ok (), s', t) := by
    show (((a.notify e).run s).1, ((a.notify e).run s).2, t) = _
    rw [h]
  exact Action.run_bind_of_ok hfirst _

/-- The second observer is not told what the first has refused. -/
theorem run_notify_pair_of_error {e : Event} (h : (a.notify e).run s = (.error err, s')) (t : τ) :
    ((a.pair b).notify e).run (s, t) = (.error err, s', t) := by
  have hfirst : ((a.onFirst : Observer (σ × τ) ε).notify e).run (s, t) = (.error err, s', t) := by
    show (((a.notify e).run s).1, ((a.notify e).run s).2, t) = _
    rw [h]
  exact Action.run_bind_of_error hfirst _

theorem Accepts.pair (ha : a.Accepts s es s') (hb : b.Accepts t es t') :
    (a.pair b).Accepts (s, t) es (s', t') := by
  induction ha generalizing t with
  | nil s =>
    cases hb
    exact .nil _
  | cons first _ ih =>
    cases hb with
    | cons first' others' =>
      refine .cons ?_ (ih others')
      rw [run_notify_pair_of_ok first, first']

/-- If the second observer accepts what comes before, the refusal of the first one counts. -/
theorem RefusesAt.pair_left (ha : a.RefusesAt s es i err s') (hb : b.Accepts t (es.take i) t') :
    (a.pair b).RefusesAt (s, t) es i err (s', t') := by
  induction ha generalizing t with
  | here es refused =>
    cases hb
    exact .here es (run_notify_pair_of_error refused _)
  | later first _ ih =>
    cases hb with
    | cons first' others' =>
      refine .later ?_ (ih others')
      rw [run_notify_pair_of_ok first, first']

/-- If the first observer accepts the event as well, the refusal of the second one counts. -/
theorem RefusesAt.pair_right (hb : b.RefusesAt t es j err t')
    (ha : a.Accepts s (es.take (j + 1)) s') : (a.pair b).RefusesAt (s, t) es j err (s', t') := by
  induction hb generalizing s with
  | here es refused =>
    cases ha with
    | cons first others =>
      cases others
      refine .here es ?_
      rw [run_notify_pair_of_ok first, refused]
  | later first' _ ih =>
    cases ha with
    | cons first others =>
      refine .later ?_ (ih others)
      rw [run_notify_pair_of_ok first, first']

end Pair

end Observer

/-- **No observer steers a parse.** It is told the events of the recording, up to and with the
first that it refuses, and that refusal is the outcome; if it refuses none, the outcome is the
recorded one. Of two observers that share no state, the one that would refuse an earlier event
decides, and if both would refuse the same event, the first one does. -/
theorem parse_tells_observers {σ τ ε : Type} {tokens : List Token}
    {r : Except (ParseError ε) Unit} {ev : List Event}
    (hrecorded : (parse (Observer.recorder : Observer (List Event) ε) tokens).run [] = (r, ev)) :
    (∀ (o : Observer σ ε) (s : σ),
      ((∃ s', o.Accepts s ev s') ∨ ∃ i err s', o.RefusesAt s ev i err s') ∧
      (∀ s', o.Accepts s ev s' →
        (parse o tokens).run s = (r, s') ∧ (parse o.logged tokens).run (s, []) = (r, s', ev)) ∧
      ∀ i err s', o.RefusesAt s ev i err s' →
        (parse o tokens).run s = (.error (.action err), s') ∧
          (parse o.logged tokens).run (s, []) = (.error (.action err), s', ev.take (i + 1))) ∧
    ∀ (a : Observer σ ε) (b : Observer τ ε) (s : σ) (t : τ),
      (∀ i err s', a.RefusesAt s ev i err s' →
        (∀ j err' t', b.RefusesAt t ev j err' t' → i ≤ j) →
        ∃ t', b.Accepts t (ev.take i) t' ∧
          (parse (a.pair b) tokens).run (s, t) = (.error (.action err), s', t') ∧
          (parse (a.logged.pair b.logged) tokens).run ((s, []), (t, [])) =
            (.error (.action err), (s', ev.take (i + 1)), (t', ev.take i))) ∧
      (∀ j err t', b.RefusesAt t ev j err t' →
        (∀ i err' s', a.RefusesAt s ev i err' s' → j < i) →
        ∃ s', a.Accepts s (ev.take (j + 1)) s' ∧
          (parse (a.pair b) tokens).run (s, t) = (.error (.action err), s', t') ∧
          (parse (a.logged.pair b.logged) tokens).run ((s, []), (t, [])) =
            (.error (.action err), (s', ev.take (j + 1)), (t', ev.take (j + 1)))) ∧
      ∀ s' t', a.Accepts s ev s' → b.Accepts t ev t' →
        (parse (a.pair b) tokens).run (s, t) = (r, s', t') := by
  refine ⟨fun o s => ⟨o.accepts_or_refuses s ev, fun s' h => ?_, fun i err s' h => ?_⟩,
    fun a b s t => ⟨fun i err s' ha hb => ?_, fun j err t' hb ha => ?_, fun s' t' ha hb => ?_⟩⟩
  · exact ⟨h.run_parse hrecorded, (h.logged []).run_parse hrecorded⟩
  · exact ⟨h.run_parse hrecorded, (h.logged []).run_parse hrecorded⟩
  · obtain ⟨t', haccepts⟩ := Observer.exists_accepts_take hb
    exact ⟨t', haccepts, (ha.pair_left haccepts).run_parse hrecorded,
      ((ha.logged []).pair_left (haccepts.logged [])).run_parse hrecorded⟩
  · obtain ⟨s', haccepts⟩ := Observer.exists_accepts_take ha
    exact ⟨s', haccepts, (hb.pair_right haccepts).run_parse hrecorded,
      ((hb.logged []).pair_right (haccepts.logged [])).run_parse hrecorded⟩
  · exact (ha.pair hb).run_parse hrecorded

/-- The tokens of `return 1;`. -/
def returnOne : List Token :=
  [.keyword .ret, .literal "1", .semicolon, .eof]

/-- The events of `return 1;`. -/
def returnOneEvents : List Event :=
  [.shift (.keyword .ret), .shift (.literal "1"), .reduce .literal, .reduce .term,
    .reduce .expression, .reduce .ret, .shift .semicolon, .reduce .lastStatement, .reduce .program,
    .accept]

/-- A recorder that refuses one event. -/
def refuser (label number : Nat) (error : String) : Recorder String where
  label := label
  refusal := some (number, error)

/-- A pair whose second half refuses earlier, and one in which both halves refuse the same event. -/
theorem parse_tells_refusers :
    (parse (Observer.recorder : Observer (List Event) String) returnOne).run [] =
        (.ok (), returnOneEvents) ∧
      (∃ s', (parse ((refuser 0 2 "third").observer.pair (refuser 1 1 "second").observer)
        returnOne).run (#[], #[]) =
          (.error (.action "second"), s',
            #[(1, .shift (.keyword .ret)), (1, .shift (.literal "1"))])) ∧
      ∃ t', (parse ((refuser 0 2 "third").observer.pair (refuser 1 2 "late").observer)
        returnOne).run (#[], #[]) =
          (.error (.action "third"),
            #[(0, .shift (.keyword .ret)), (0, .shift (.literal "1")), (0, .reduce .literal)],
            t') := by
  have hrecorded : (parse (Observer.recorder : Observer (List Event) String) returnOne).run [] =
      (.ok (), returnOneEvents) := rfl
  have hthird : (refuser 0 2 "third").observer.RefusesAt #[] returnOneEvents 2 "third" _ :=
    .later rfl (.later rfl (.here _ rfl))
  have hsecond : (refuser 1 1 "second").observer.RefusesAt #[] returnOneEvents 1 "second" _ :=
    .later rfl (.here _ rfl)
  have hlate : (refuser 1 2 "late").observer.RefusesAt #[] returnOneEvents 2 "late" _ :=
    .later rfl (.later rfl (.here _ rfl))
  refine ⟨hrecorded, ?_, ?_⟩
  · have hpair := (parse_tells_observers hrecorded).2 (refuser 0 2 "third").observer
      (refuser 1 1 "second").observer #[] #[]
    obtain ⟨s', -, hrun, -⟩ := hpair.2.1 1 "second" _ hsecond fun i err' s' h => by
      rw [← hthird.unique h]
      decide
    exact ⟨s', hrun⟩
  · have hpair := (parse_tells_observers hrecorded).2 (refuser 0 2 "third").observer
      (refuser 1 2 "late").observer #[] #[]
    obtain ⟨t', -, hrun, -⟩ := hpair.1 2 "third" _ hthird fun j err' t' h =>
      Nat.le_of_eq (hlate.unique h)
    exact ⟨t', hrun⟩

end StraightLine
