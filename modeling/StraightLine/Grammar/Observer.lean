import StraightLine.Action
import StraightLine.Grammar.Production

/-!
# Events of a parse, and those who watch them

A parse is told as a sequence of events: a token is shifted, a production is reduced, the program is
accepted. An observer keeps a state of its own, is told each event, and may refuse it. Its reaction
is an `Action`, so a refused event may still leave its mark on the state.

## Main definitions

* `Event` — one step of a bottom-up parse
* `Observer` — a state with a reaction to every event
* `Observer.deliver` — tell an observer events until it refuses one
* `Observer.both`, `Observer.sequence` — observers of one state, told one after the other
* `Observer.pair` — two observers that share no state
* `Observer.recorder` — keeps every event and refuses none
-/

namespace StraightLine

/-- One step of a bottom-up parse. -/
inductive Event where
  /-- The next token is taken. -/
  | shift (t : Token)
  /-- A phrase is complete. -/
  | reduce (p : Production)
  /-- The program is complete. -/
  | accept
  deriving DecidableEq, Repr

/-- An event in a listing. -/
def Event.render : Event → String
  | .shift t => "shift " ++ t.render
  | .reduce p => "reduce " ++ p.render
  | .accept => "accept"

/-- A reaction to events: it changes a state `σ` and may refuse with an error `ε`. -/
structure Observer (σ ε : Type) where
  /-- React to an event. -/
  notify : Event → Action σ ε Unit

namespace Observer

variable {σ τ ε : Type}

/-- Tell an observer events in order, up to and with the first that it refuses. -/
def deliver (o : Observer σ ε) : List Event → Action σ ε Unit
  | [] => pure ()
  | e :: es => do
    o.notify e
    o.deliver es

/-- Refuses nothing and changes nothing. -/
def idle : Observer σ ε where
  notify _ := pure ()

/-- Keeps every event, in order. -/
def recorder : Observer (List Event) ε where
  notify e := .modify (· ++ [e])

/-- Two observers of one state. The second is told only what the first has not refused. -/
def both (first second : Observer σ ε) : Observer σ ε where
  notify e := do
    first.notify e
    second.notify e

/-- Observers of one state, told one after the other. -/
def sequence : List (Observer σ ε) → Observer σ ε :=
  List.foldr both idle

/-- An observer of the first half of a state. -/
def onFirst (o : Observer σ ε) : Observer (σ × τ) ε where
  notify e s :=
    let (r, s') := (o.notify e).run s.1
    (r, s', s.2)

/-- An observer of the second half of a state. -/
def onSecond (o : Observer τ ε) : Observer (σ × τ) ε where
  notify e s :=
    let (r, s') := (o.notify e).run s.2
    (r, s.1, s')

/-- Two observers that share no state, the first told first. -/
def pair (first : Observer σ ε) (second : Observer τ ε) : Observer (σ × τ) ε :=
  both first.onFirst second.onSecond

/-- Note every event in the state before the observer is told of it. -/
def noting (note : Event → σ → σ) (o : Observer σ ε) : Observer σ ε where
  notify e := do
    .modify (note e)
    o.notify e

end Observer

end StraightLine
