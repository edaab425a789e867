import StraightLine.Code.Instr

/-!
# Running straight-line code

A store holds the values written so far. Code runs from first to last instruction and ends at the
first `ret`, at the end of the list, or where a variable is read that was never written. An operator
reads its left operand before its right one, and an instruction that cannot read an operand writes
nothing.

## Main definitions

* `Store` — the values of variables
* `Instr.effect` — what one instruction does
* `runCode` — run code from a store
* `evaluate` — run code from the empty store

## Main results

* `Store.get?_set` — a write changes one variable
-/

namespace StraightLine

/-- Why code cannot go on. -/
inductive EvalError where
  /-- A variable is read that was never written. -/
  | uninitialized (v : Var)
  deriving DecidableEq, Repr

/-- The text of the error. -/
def EvalError.message : EvalError → String
  | .uninitialized v => "Variable `" ++ v.render ++ "` was read before being assigned"

/-! ## Stores -/

/-- The writes made so far, the latest first. -/
structure Store where
  /-- Variables with the values written to them. -/
  writes : List (Var × Int32) := []

namespace Store

/-- The value of a variable is the latest that was written to it. -/
def get? (s : Store) (v : Var) : Option Int32 :=
  s.writes.lookup v

/-- Write a value to a variable. -/
def set (s : Store) (v : Var) (value : Int32) : Store where
  writes := (v, value) :: s.writes

@[simp] theorem get?_empty (v : Var) : ({} : Store).get? v = none :=
  rfl

/-- A write changes one variable. -/
theorem get?_set (s : Store) (v w : Var) (value : Int32) :
    (s.set v value).get? w = if w = v then some value else s.get? w := by
  by_cases h : w = v
  · simp [get?, set, h]
  · simp [get?, set, List.lookup_cons, h, beq_eq_false_iff_ne.2 h]

end Store

/-! ## Instructions -/

/-- The value of an operand. -/
def Operand.eval (s : Store) : Operand → Except EvalError Int32
  | .imm value => .ok value
  | .var v =>
    match s.get? v with
    | some value => .ok value
    | none => .error (.uninitialized v)

/-- What an instruction does once its operands are read. -/
inductive Effect where
  /-- Write a value to a variable and go on. -/
  | write (dest : Var) (value : Int32)
  /-- End with a value. -/
  | finish (value : Int32)
  deriving DecidableEq, Repr

/-- What an instruction does in a store. -/
def Instr.effect (s : Store) : Instr → Except EvalError Effect
  | .mov dest src => do
    let value ← src.eval s
    return .write dest value
  | .arith op dest lhs rhs => do
    let x ← lhs.eval s
    let y ← rhs.eval s
    return .write dest (op.apply x y)
  | .ret value => do
    let x ← value.eval s
    return .finish x

/-! ## Code -/

/-- How a run of code ended. -/
structure Run where
  /-- The value of the `ret` that was reached, nothing if there was none, or why the run stopped. -/
  result : Except EvalError (Option Int32)
  /-- The store at the end. -/
  store : Store
  /-- The instructions that were begun, in order. -/
  begun : List Instr

/-- Run code from a store. -/
def runCode : List Instr → Store → Run
  | [], s => ⟨.ok none, s, []⟩
  | i :: code, s =>
    match i.effect s with
    | .error e => ⟨.error e, s, [i]⟩
    | .ok (.finish value) => ⟨.ok (some value), s, [i]⟩
    | .ok (.write dest value) =>
      let rest := runCode code (s.set dest value)
      { rest with begun := i :: rest.begun }

/-- Run code from the empty store. -/
def evaluate (code : List Instr) : Run :=
  runCode code {}

end StraightLine
