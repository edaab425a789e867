import StraightLine.Grammar.Parse

/-!
# Recording a parse

Several recorders can watch one parse and write into one record, each under its own label, so that
the record shows the order in which they were told. A recorder may be set to refuse one of its
events, by its number among those the recorder has been told: the event is recorded, then refused.

## Main definitions

* `Recorder` — a label, and which event to refuse with which error
* `Recorder.observer` — the recorder as an observer of the record
* `recordParse` — parse tokens under the eyes of several recorders
-/

namespace StraightLine

/-- Events in the order in which they were recorded, each with the label of its recorder. -/
abbrev EventRecord := Array (Nat × Event)

/-- One who writes events into a record. -/
structure Recorder (ε : Type) where
  /-- The label of its events. -/
  label : Nat
  /-- The number, from zero on, of the event it refuses, and the error it refuses it with. -/
  refusal : Option (Nat × ε) := none

namespace Recorder

variable {ε : Type}

/-- The number of events that a recorder has recorded. -/
def count (r : Recorder ε) (seen : EventRecord) : Nat :=
  seen.countP (·.1 == r.label)

/-- The error with which a recorder refuses its next event, if it does. -/
def refusal? (r : Recorder ε) (seen : EventRecord) : Option ε :=
  match r.refusal with
  | some (n, error) => if n = r.count seen then some error else none
  | none => none

/-- Record every event, and refuse the one that is set. -/
def observer (r : Recorder ε) : Observer EventRecord ε where
  notify e := do
    let refusal ← .inspect r.refusal?
    .modify (·.push (r.label, e))
    match refusal with
    | some error => .fail error
    | none => pure ()

end Recorder

/-- Parse tokens under the eyes of several recorders, told one after the other. -/
def recordParse {ε : Type} (recorders : List (Recorder ε)) (tokens : List Token) :
    Except (ParseError ε) Unit × EventRecord :=
  (parse (Observer.sequence (recorders.map Recorder.observer)) tokens).run #[]

end StraightLine
