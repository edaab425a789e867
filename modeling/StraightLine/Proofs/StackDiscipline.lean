import Mathlib
import StraightLine.Proofs.EventStream
import StraightLine.Proofs.Watching

/-!
# What observers do to their stacks

A reduction takes a cell for each symbol of the body of its production and pushes one. What it
brings about beyond the stack comes behind the last step that can fail. So a reduction that fails
has lost cells and has done nothing else: no cell is pushed, no instruction is emitted, no temporary
is used up, no type is given.

How high a stack is then depends on the events alone, if none of them was refused. Two observers who
were told the same have stacks of the same height, although they have nothing to do with each other.

## Main definitions

* `Observer.KeepsStack` — how an observer treats its own stack, and what else it leaves alone
* `Event.height` — the height of a stack behind an event

## Main results

* `keepsStack_typeBinder`, `keepsStack_codeEmitter` — both observers keep their stacks
* `Observer.KeepsStack.length_of_accepts` — the height of a stack behind accepted events
* `observers_keep_stacks` — all of it together
-/

namespace StraightLine

open AttributeStack

/-! ## The stacks of the observers -/

/-- How an observer treats a stack of cells in an analysis: `cells` is the stack, and `put` leaves
everything but the stack as it is. -/
structure Observer.KeepsStack {α : Type} (o : Observer Analysis SemanticError)
    (cells : Analysis → List (Cell α)) (put : Analysis → List (Cell α) → Analysis) : Prop where
  /-- What is put is there. -/
  cells_put : ∀ a stack, cells (put a stack) = stack
  /-- A shift is never refused. It pushes the token and does nothing else. -/
  shift : ∀ t a, (o.notify (.shift t)).run a = (.ok (), put a (.token t :: cells a))
  /-- A reduction takes a cell for each symbol of the body and pushes one. If it is refused, it has
  taken no more cells than that, and it has done nothing else. -/
  reduce : ∀ p a, (o.notify (.reduce p)).Ends a
    (fun _ a' => ∃ taken cell rest, taken.length = p.arity ∧ cells a = taken ++ rest ∧
      cells a' = cell :: rest)
    (fun _ a' => ∃ taken rest, taken.length ≤ p.arity ∧ cells a = taken ++ rest ∧ a' = put a rest)
  /-- An acceptance takes the only cell. If there is none or more than one, it is refused and does
  nothing. -/
  accept : ∀ a, (o.notify .accept).run a =
    if (cells a).length = 1 then (.ok (), put a [])
    else (.error (.unbalancedAccept (cells a).length), a)

variable {a a' : Analysis} {p : Production}

theorem Analysis.run_onTypes {β : Type} (x : StackAction SourceType β) (a : Analysis) :
    (onTypes x).run a = ((x.run a.typeCells).1, { a with typeCells := (x.run a.typeCells).2 }) :=
  rfl

theorem Analysis.run_onValues {β : Type} (x : StackAction Operand β) (a : Analysis) :
    (onValues x).run a =
      ((x.run a.valueCells).1, { a with valueCells := (x.run a.valueCells).2 }) :=
  rfl

/-- How a reduction ends for the observer of declarations. -/
theorem typeBinder_reduce_ends (p : Production) (a : Analysis) :
    (typeBinder.notify (.reduce p)).Ends a
      (fun _ a' => ∃ taken cell rest, taken.length = p.arity ∧ a.typeCells = taken ++ rest ∧
        a'.typeCells = cell :: rest)
      (fun _ a' => ∃ taken rest, taken.length ≤ p.arity ∧ a.typeCells = taken ++ rest ∧
        a' = { a with typeCells := rest }) := by
  obtain ⟨hok, herror⟩ := typeReduction_takes p a.typeCells
  have honTypes := Analysis.run_onTypes (typeReduction p) a
  rcases hred : (typeReduction p).run a.typeCells with ⟨e | ⟨cell, declared⟩, rest⟩
  · obtain ⟨taken, hlen, hcells⟩ := herror e rest hred
    rw [hred] at honTypes
    exact Action.ends_of_error (Action.run_bind_of_error honTypes _)
      ⟨taken, rest, hlen, hcells, rfl⟩
  · obtain ⟨taken, hlen, hcells⟩ := hok _ rest hred
    rw [hred] at honTypes
    cases declared with
    | none =>
      exact Action.ends_of_ok (Action.run_bind_of_ok honTypes _)
        ⟨taken, cell, rest, hlen, hcells, rfl⟩
    | some binding =>
      obtain ⟨x, type⟩ := binding
      -- all cells have been taken when the name is looked up
      have hbind : (Analysis.bindType x type >>= fun _ => Analysis.pushType cell).Ends
          { a with typeCells := rest } (fun _ a' => a'.typeCells = cell :: rest)
          (fun _ a' => a' = { a with typeCells := rest }) := by
        obtain ⟨hbound, hunbound⟩ := Analysis.bindType_ends x type { a with typeCells := rest }
        refine Action.Ends.bind ⟨hbound, fun e b hb => (hunbound e b hb).2⟩ ?_
        rintro _ _ ⟨-, log, rfl⟩
        exact Action.ends_of_ok rfl rfl
      have hnotify : (typeBinder.notify (.reduce p)).run a =
          (Analysis.bindType x type >>= fun _ => Analysis.pushType cell).run
            { a with typeCells := rest } := Action.run_bind_of_ok honTypes _
      rw [Action.Ends, hnotify]
      exact ⟨fun _ a' ha' => ⟨taken, cell, rest, hlen, hcells, hbind.1 _ a' ha'⟩,
        fun e a' ha' => ⟨taken, rest, hlen.le, hcells, hbind.2 e a' ha'⟩⟩

/-- How a reduction ends for the observer that emits code. -/
theorem codeEmitter_reduce_ends (p : Production) (a : Analysis) :
    (codeEmitter.notify (.reduce p)).Ends a
      (fun _ a' => ∃ taken cell rest, taken.length = p.arity ∧ a.valueCells = taken ++ rest ∧
        a'.valueCells = cell :: rest)
      (fun _ a' => ∃ taken rest, taken.length ≤ p.arity ∧ a.valueCells = taken ++ rest ∧
        a' = { a with valueCells := rest }) := by
  obtain ⟨hok, herror⟩ := valueReduction_takes p a.symbols (.temp a.nextTemp) a.valueCells
  rcases hred : (valueReduction a.symbols (.temp a.nextTemp) p).run a.valueCells with
    ⟨e | out, rest⟩
  · obtain ⟨taken, hlen, hcells⟩ := herror e rest hred
    exact Action.ends_of_error (run_codeEmitter_reduce_error hred) ⟨taken, rest, hlen, hcells, rfl⟩
  · obtain ⟨taken, hlen, hcells⟩ := hok out rest hred
    obtain ⟨a', hrun, hemission, -⟩ := run_codeEmitter_reduce hred
    refine Action.ends_of_ok hrun ⟨taken, out.1, rest, hlen, hcells, ?_⟩
    exact (congrArg Emission.cells hemission).trans (a.emission.cells_reduce rest out)

/-- **The observer of declarations keeps its stack.** -/
theorem keepsStack_typeBinder :
    typeBinder.KeepsStack Analysis.typeCells fun a stack => { a with typeCells := stack } where
  cells_put _ _ := rfl
  shift _ _ := rfl
  reduce := typeBinder_reduce_ends
  accept a := by
    change (Analysis.onTypes takeLast).run a = _
    rw [Analysis.run_onTypes]
    by_cases hlen : a.typeCells.length = 1
    · have htake : takeLast.run a.typeCells = (.ok (), []) := if_pos hlen
      rw [if_pos hlen, htake]
    · have htake : takeLast.run a.typeCells =
          (.error (.unbalancedAccept a.typeCells.length), a.typeCells) := if_neg hlen
      rw [if_neg hlen, htake]

/-- **The observer that emits code keeps its stack.** -/
theorem keepsStack_codeEmitter :
    codeEmitter.KeepsStack Analysis.valueCells fun a stack => { a with valueCells := stack } where
  cells_put _ _ := rfl
  shift _ _ := rfl
  reduce := codeEmitter_reduce_ends
  accept a := by
    change (Analysis.onValues takeLast).run a = _
    rw [Analysis.run_onValues]
    by_cases hlen : a.valueCells.length = 1
    · have htake : takeLast.run a.valueCells = (.ok (), []) := if_pos hlen
      rw [if_pos hlen, htake]
    · have htake : takeLast.run a.valueCells =
          (.error (.unbalancedAccept a.valueCells.length), a.valueCells) := if_neg hlen
      rw [if_neg hlen, htake]

/-- Whatever the observer that emits code is told, and also where it refuses, it leaves the symbol
table and the stack of the other observer alone. -/
theorem codeEmitter_spares (e : Event) (a : Analysis) :
    ((codeEmitter.notify e).run a).2.symbols = a.symbols ∧
      ((codeEmitter.notify e).run a).2.typeCells = a.typeCells := by
  cases e with
  | shift t => exact ⟨rfl, rfl⟩
  | accept => exact ⟨rfl, rfl⟩
  | reduce p =>
    rcases hred : (valueReduction a.symbols (.temp a.nextTemp) p).run a.valueCells with
      ⟨e | out, rest⟩
    · rw [run_codeEmitter_reduce_error hred]
      exact ⟨rfl, rfl⟩
    · obtain ⟨a', hrun, -, hsymbols, htypes⟩ := run_codeEmitter_reduce hred
      rw [hrun]
      exact ⟨hsymbols, htypes⟩

/-! ## Heights -/

/-- The height of a stack behind an event that is not refused. -/
def Event.height (n : Nat) : Event → Nat
  | .shift _ => n + 1
  | .reduce p => n - p.arity + 1
  | .accept => 0

namespace Observer

variable {α : Type} {o : Observer Analysis SemanticError} {cells : Analysis → List (Cell α)}
  {put : Analysis → List (Cell α) → Analysis} {e : Event} {es : List Event}

/-- **An event decides how high a stack becomes.** -/
theorem KeepsStack.length_of_notify (h : o.KeepsStack cells put)
    (hrun : (o.notify e).run a = (.ok (), a')) : (cells a').length = e.height (cells a).length := by
  cases e with
  | shift t =>
    rw [h.shift] at hrun
    cases hrun
    rw [h.cells_put]
    rfl
  | reduce p =>
    obtain ⟨taken, cell, rest, hlen, hcells, hcells'⟩ := (h.reduce p a).1 () a' hrun
    rw [hcells, hcells', Event.height, List.length_cons, List.length_append, hlen,
      Nat.add_sub_cancel_left]
  | accept =>
    rw [h.accept] at hrun
    split at hrun <;> cases hrun
    rw [h.cells_put]
    rfl

/-- **The events decide how high a stack is** behind them. -/
theorem KeepsStack.length_of_accepts (h : o.KeepsStack cells put) (haccepts : o.Accepts a es a') :
    (cells a').length = es.foldl Event.height (cells a).length := by
  induction haccepts with
  | nil a => rfl
  | cons first _ ih => rw [ih, List.foldl_cons, h.length_of_notify first]

end Observer

/-- Also when both observers are told the events of one analysis, the stack of each is as high as
the events say. -/
theorem length_of_analyst_accepts {es : List Event} (h : analyst.Accepts a es a') :
    a'.typeCells.length = es.foldl Event.height a.typeCells.length ∧
      a'.valueCells.length = es.foldl Event.height a.valueCells.length := by
  induction h with
  | nil a => exact ⟨rfl, rfl⟩
  | @cons a b a' e es first _ ih =>
    obtain ⟨⟨⟩, c, hlog, hboth⟩ := Action.run_bind_eq_ok.mp first
    obtain rfl := Action.run_modify_eq_ok.mp hlog
    obtain ⟨⟨⟩, c, htypes, hcode⟩ := Action.run_bind_eq_ok.mp hboth
    have htypeCells : b.typeCells = c.typeCells := by
      have hspared := (codeEmitter_spares e c).2
      rwa [hcode] at hspared
    have hvalueCells : c.valueCells = a.valueCells :=
      congrArg Emission.cells (emission_of_typeBinder htypes)
    rw [ih.1, ih.2, List.foldl_cons, List.foldl_cons, htypeCells,
      keepsStack_typeBinder.length_of_notify htypes, keepsStack_codeEmitter.length_of_notify hcode,
      hvalueCells]
    exact ⟨rfl, rfl⟩

/-- **Both observers keep their stacks.** Whatever its state, an observer pushes every token that is
shifted; at a reduction it takes as many cells as the body has symbols and pushes one, or it refuses
with at most that many cells taken and nothing else changed; and it accepts with its only cell, or
refuses and changes nothing. So two observers, from fresh states and with any symbol tables, have
stacks of the same height behind the same events, if neither has refused one; and so have the two
observers of one analysis. -/
theorem observers_keep_stacks :
    (typeBinder.KeepsStack Analysis.typeCells fun a stack => { a with typeCells := stack }) ∧
    (codeEmitter.KeepsStack Analysis.valueCells fun a stack => { a with valueCells := stack }) ∧
    (∀ (es : List Event) (symbols symbols' : SymbolTable) (a b : Analysis),
      typeBinder.Accepts (.fresh symbols) es a → codeEmitter.Accepts (.fresh symbols') es b →
        a.typeCells.length = b.valueCells.length) ∧
    ∀ (es : List Event) (symbols : SymbolTable) (a : Analysis),
      analyst.Accepts (.fresh symbols) es a → a.typeCells.length = a.valueCells.length := by
  refine ⟨keepsStack_typeBinder, keepsStack_codeEmitter, fun es symbols symbols' a b ha hb => ?_,
    fun es symbols a ha => ?_⟩
  · rw [keepsStack_typeBinder.length_of_accepts ha, keepsStack_codeEmitter.length_of_accepts hb]
    rfl
  · obtain ⟨htypes, hvalues⟩ := length_of_analyst_accepts ha
    rw [htypes, hvalues]
    rfl

/-- The events of `x + 1`, without the reductions that only pass a value on. -/
def sumEvents : List Event :=
  [.shift (.ident "x"), .reduce .name, .shift .plus, .shift (.literal "1"), .reduce .literal,
    .reduce .add]

/-- An analysis with one value and nothing below it. -/
def loneValue : Analysis where
  symbols := .empty
  valueCells := [.value (.imm 1)]

/-- Behind a sum each observer has one cell. A `return` that finds a value and no word below it is
refused; the value is lost, and nothing else has changed. -/
theorem observers_keep_stacks_sum :
    (∃ a b, typeBinder.Accepts (.fresh .empty) sumEvents a ∧
      codeEmitter.Accepts (.fresh (SymbolTable.empty.add "x")) sumEvents b ∧
      b.valueCells = [.value (.var (.temp 0))] ∧ a.typeCells.length = b.valueCells.length) ∧
    ∃ a', (codeEmitter.notify (.reduce .ret)).run loneValue = (.error (.stackUnderflow .ret), a') ∧
      ∃ taken rest, taken.length ≤ Production.ret.arity ∧ loneValue.valueCells = taken ++ rest ∧
        a' = { loneValue with valueCells := rest } := by
  obtain ⟨-, hemitter, hheights, -⟩ := observers_keep_stacks
  constructor
  · have ha : typeBinder.Accepts (.fresh .empty) sumEvents _ :=
      .cons rfl (.cons rfl (.cons rfl (.cons rfl (.cons rfl (.cons rfl (.nil _))))))
    have hb : codeEmitter.Accepts (.fresh (SymbolTable.empty.add "x")) sumEvents _ :=
      .cons rfl (.cons rfl (.cons rfl (.cons rfl (.cons rfl (.cons rfl (.nil _))))))
    exact ⟨_, _, ha, hb, rfl, hheights _ _ _ _ _ ha hb⟩
  · have hrun : (codeEmitter.notify (.reduce .ret)).run loneValue =
        (.error (.stackUnderflow .ret), { loneValue with valueCells := [] }) := rfl
    exact ⟨_, hrun, (hemitter.reduce .ret loneValue).2 _ _ hrun⟩

end StraightLine
