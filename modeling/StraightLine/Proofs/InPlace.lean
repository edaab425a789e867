import Mathlib
import StraightLine.Analysis.InPlace
import StraightLine.Compilation
import StraightLine.Proofs.StackDiscipline

/-!
# Effects in place and effects at the end

A reduction that takes all its cells first and then says what is to be recorded does the same as one
that has every effect in place. Two facts carry this. An action on one of the stacks is, within the
whole state, a sequence of the same steps: `Analysis.onValues` and `Analysis.onTypes` commute with
sequencing. And what such an action does not touch may as well be looked up behind it.

So the steps of one reduction are brought into the order of the other, production by production.

## Main results

* `Analysis.onValues_bind`, `Analysis.onTypes_bind` — steps on a stack are steps of the whole
* `Analysis.inspect_onValues` — what is not on the stack can be looked up later
* `InPlace.codeEmitter_eq`, `InPlace.typeBinder_eq` — the observers are the same
-/

namespace StraightLine

namespace Analysis

variable {α β γ : Type}

theorem onValues_pure (b : α) : onValues (pure b) = pure b :=
  rfl

/-- Steps on the stack of values are steps of the whole. -/
theorem onValues_bind (x : StackAction Operand α) (f : α → StackAction Operand β) :
    onValues (x >>= f) = onValues x >>= fun b => onValues (f b) := by
  funext a
  change (onValues (x >>= f)).run a = (onValues x >>= fun b => onValues (f b)).run a
  have hx := run_onValues x a
  rw [run_onValues]
  rcases h : x.run a.valueCells with ⟨e | b, cells⟩ <;> rw [h] at hx
  · rw [Action.run_bind_of_error h, Action.run_bind_of_error hx]
  · rw [Action.run_bind_of_ok h, Action.run_bind_of_ok hx, run_onValues]

theorem onTypes_pure (b : α) : onTypes (pure b) = pure b :=
  rfl

/-- Steps on the stack of types are steps of the whole. -/
theorem onTypes_bind (x : StackAction SourceType α) (f : α → StackAction SourceType β) :
    onTypes (x >>= f) = onTypes x >>= fun b => onTypes (f b) := by
  funext a
  change (onTypes (x >>= f)).run a = (onTypes x >>= fun b => onTypes (f b)).run a
  have hx := run_onTypes x a
  rw [run_onTypes]
  rcases h : x.run a.typeCells with ⟨e | b, cells⟩ <;> rw [h] at hx
  · rw [Action.run_bind_of_error h, Action.run_bind_of_error hx]
  · rw [Action.run_bind_of_ok h, Action.run_bind_of_ok hx, run_onTypes]

/-- What is not on the stack of values can be looked up later. -/
theorem inspect_onValues {f : Analysis → γ} (hf : ∀ a cells, f { a with valueCells := cells } = f a)
    (x : StackAction Operand α) (k : γ → α → Action Analysis SemanticError β) :
    (Action.inspect f >>= fun c => onValues x >>= k c) =
      onValues x >>= fun b => Action.inspect f >>= fun c => k c b := by
  funext a
  change (onValues x >>= k (f a)).run a =
    (onValues x >>= fun b => Action.inspect f >>= fun c => k c b).run a
  have hx := run_onValues x a
  rcases h : x.run a.valueCells with ⟨e | b, cells⟩ <;> rw [h] at hx
  · rw [Action.run_bind_of_error hx, Action.run_bind_of_error hx]
  · rw [Action.run_bind_of_ok hx, Action.run_bind_of_ok hx,
      Action.run_bind_of_ok (Action.run_inspect f _), hf a cells]

end Analysis

namespace InPlace

open Analysis AttributeStack

section Emission

variable {α β : Type} (x : StackAction Operand α)

theorem inspect_symbols_onValues (k : SymbolTable → α → Action Analysis SemanticError β) :
    (Action.inspect symbols >>= fun s => onValues x >>= k s) =
      onValues x >>= fun b => Action.inspect symbols >>= fun s => k s b :=
  inspect_onValues (fun _ _ => rfl) x k

theorem inspect_temp_onValues (k : Var → α → Action Analysis SemanticError β) :
    (Action.inspect (fun a => Var.temp a.nextTemp) >>= fun t => onValues x >>= k t) =
      onValues x >>= fun b => Action.inspect (fun a => Var.temp a.nextTemp) >>= fun t => k t b :=
  inspect_onValues (fun _ _ => rfl) x k

/-- To look a name up in place is to look at the table and go on with the stack. -/
theorem resolve_eq (name : String) :
    resolve name =
      Action.inspect symbols >>= fun s => onValues (StraightLine.resolve s name) := by
  funext a
  change (resolve name).run a = (onValues (StraightLine.resolve a.symbols name)).run a
  rw [resolve, StraightLine.resolve, Action.run_bind_of_ok (Action.run_inspect _ a)]
  split <;> rfl

/-- What a reduction does once it has taken its cells. -/
def record (r : Cell Operand × Option Instr) : Action Analysis SemanticError Unit := do
  match r.2 with
  | some i => .modify (·.append i)
  | none => pure ()
  pushValue r.1

theorem notify_reduce (p : Production) :
    StraightLine.codeEmitter.notify (.reduce p) =
      Action.inspect symbols >>= fun s =>
        Action.inspect (fun a => Var.temp a.nextTemp) >>= fun t =>
          onValues (valueReduction s t p) >>= record :=
  rfl

/-- An operator uses up its temporary and emits its instruction in place. -/
theorem binary_eq (p : Production) (op : ArithOp) :
    (binary p op >>= pushValue) =
      Action.inspect (fun a => Var.temp a.nextTemp) >>= fun t =>
        onValues (arithReduction t op p) >>= record := by
  simp only [binary, value, skip, arithReduction, onValues_bind, onValues_pure, Action.bind_assoc,
    Action.pure_bind, inspect_temp_onValues]
  rfl

/-- **Effects in place.** A reduction comes to the same cell, the same code and the same error. -/
theorem valueCell_eq (p : Production) :
    (valueCell p >>= pushValue) = StraightLine.codeEmitter.notify (.reduce p) := by
  rw [notify_reduce]
  cases p with
  | assignment =>
    -- the table is consulted only when all three cells have been taken
    simp only [valueCell, valueReduction, value, skip, name, resolve_eq, onValues_bind,
      onValues_pure, Action.bind_assoc, Action.pure_bind, Action.inspect_bind_const,
      inspect_symbols_onValues]
    rfl
  | add => exact binary_eq .add .add
  | sub => exact binary_eq .sub .sub
  | mul => exact binary_eq .mul .mul
  | ret | expression | term | paren =>
    simp only [valueCell, valueReduction, value, skip, onValues_bind, onValues_pure,
      Action.bind_assoc, Action.pure_bind, Action.inspect_bind_const]
    rfl
  | name =>
    simp only [valueCell, valueReduction, name, resolve_eq, onValues_bind, onValues_pure,
      Action.bind_assoc, Action.pure_bind, Action.inspect_bind_const, inspect_symbols_onValues]
    rfl
  | literal =>
    simp only [valueCell, valueReduction, terminal, onValues_bind, Action.bind_assoc,
      Action.inspect_bind_const]
    refine bind_congr fun t => ?_
    cases t with
    | literal text =>
      dsimp only
      cases Decimal.toInt32? text <;> rfl
    | _ => rfl
  | program | statementList | lastStatement | declaration | declarator =>
    simp only [valueCell, valueReduction, onValues_bind, onValues_pure, Action.bind_assoc,
      Action.pure_bind, Action.inspect_bind_const]
    rfl

theorem codeEmitter_eq : codeEmitter = StraightLine.codeEmitter := by
  refine congrArg Observer.mk (funext fun e => ?_)
  cases e with
  | shift t => rfl
  | reduce p => exact valueCell_eq p
  | accept => rfl

end Emission

/-- A reduction comes to the same cell, the same types and the same error. -/
theorem typeCell_eq (p : Production) :
    (typeCell p >>= pushType) = StraightLine.typeBinder.notify (.reduce p) := by
  cases p <;> simp only [typeCell, StraightLine.typeBinder, typeReduction, onTypes_bind,
    onTypes_pure, Action.bind_assoc, Action.pure_bind]

theorem typeBinder_eq : typeBinder = StraightLine.typeBinder := by
  refine congrArg Observer.mk (funext fun e => ?_)
  cases e with
  | shift t => rfl
  | reduce p => exact typeCell_eq p
  | accept => rfl

theorem analyst_eq : analyst = StraightLine.analyst := by
  rw [analyst, typeBinder_eq, codeEmitter_eq, StraightLine.analyst]

end InPlace

end StraightLine
