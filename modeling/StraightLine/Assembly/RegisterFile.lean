import StraightLine.Assembly.Line

/-!
# The register file

Which of the seven registers `t0` to `t6` is taken, and by whom. A register is taken by a variable
or, for the length of one instruction, by a number that has to be in a register. The lowest free
register is taken first, and when none is free there is no other place to go.

## Main definitions

* `Resident` — who takes a register
* `RegisterFile` — a resident or nobody for each register of the pool
* `RegisterFile.allocate?`, `RegisterFile.release` — take and free a register
* `RegisterFile.locate?`, `RegisterFile.resident?` — the register of a variable, the resident of a
  register
-/

namespace StraightLine

/-- Who takes a register. -/
inductive Resident where
  /-- A variable of the code. -/
  | var (v : Var)
  /-- A number that has to be in a register. -/
  | scratch
  deriving DecidableEq, Repr

/-- A resident in messages. -/
def Resident.render : Resident → String
  | .var v => "`" ++ v.render ++ "`"
  | .scratch => "a scratch register"

/-- The number of registers in the pool. -/
def poolSize : Nat := 7

/-- The place of a register in the pool; other registers have none. -/
def Register.slot? : Register → Option (Fin poolSize)
  | .t number => if h : number < poolSize then some ⟨number, h⟩ else none
  | .a0 => none

/-- Who is where. -/
structure RegisterFile where
  /-- The resident of each register of the pool, from `t0` on. -/
  slots : Vector (Option Resident) poolSize

namespace RegisterFile

/-- Every register is free. -/
def empty : RegisterFile where
  slots := Vector.replicate poolSize none

instance : Inhabited RegisterFile := ⟨empty⟩

/-- The number of registers taken. -/
def bound (f : RegisterFile) : Nat :=
  f.slots.countP Option.isSome

/-- Whether some register is free. -/
def hasFree (f : RegisterFile) : Bool :=
  f.bound < poolSize

/-- The first register that a variable resides in. -/
def locate? (f : RegisterFile) (v : Var) : Option Register :=
  match f.slots.findFinIdx? (· == some (.var v)) with
  | some i => some (.t i)
  | none => none

/-- The resident of a register. -/
def resident? (f : RegisterFile) (r : Register) : Option Resident :=
  r.slot?.bind fun i => f.slots[i]

/-- Give the lowest free register to a resident. -/
def allocate? (f : RegisterFile) (who : Resident) : Option (Register × RegisterFile) :=
  match f.slots.findFinIdx? Option.isNone with
  | some i => some (.t i, ⟨f.slots.set i (some who)⟩)
  | none => none

/-- Free a register. Nothing happens if it is free already or not in the pool. -/
def release (f : RegisterFile) (r : Register) : RegisterFile :=
  match r.slot? with
  | some i => ⟨f.slots.set i none⟩
  | none => f

end RegisterFile

end StraightLine
