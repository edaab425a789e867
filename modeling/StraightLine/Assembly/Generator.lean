import StraightLine.Action
import StraightLine.Log

/-!
# From code to assembly

Code is lowered in one pass, instruction by instruction, without looking ahead. The operands of an
instruction get their registers before its destination. A named variable keeps its register for
good; a temporary is read once, so its register is free again after the `mov` or operator that reads
it. A number that no instruction can hold is put into a register of its own for as long as it is
needed.

## Main definitions

* `CodegenError` — there is no register left
* `Generator` — the registers, the lines so far, and the most registers ever taken at once
* `Generator.lower` — the lines of one instruction
* `Generator.lowerAll` — those of a list
* `generate` — the assembly of a whole program

## Implementation notes

When `lower` fails, the registers it took stay taken and the lines it emitted stay emitted.
-/

namespace StraightLine

/-- Why code has no assembly. -/
inductive CodegenError where
  /-- A register was needed and none was free. -/
  | outOfRegisters (who : Resident)
  deriving DecidableEq, Repr

/-- The text of the error. -/
def CodegenError.message : CodegenError → String
  | .outOfRegisters who => "Out of registers while allocating " ++ who.render

/-- The state of code generation. -/
structure Generator where
  /-- Who is in which register. -/
  registers : RegisterFile := .empty
  /-- The lines emitted so far. -/
  lines : Array AsmLine := #[]
  /-- The most registers ever taken at once. -/
  peak : Nat := 0
  /-- What happened so far. -/
  log : Log := #[]

/-- A step of code generation. -/
abbrev Lowering := Action Generator CodegenError

/-! ## Registers and lines -/

/-- What taking a register for a resident adds to the log. -/
def RegisterFile.allocateLog (f : RegisterFile) (who : Resident) : Log :=
  match f.allocate? who with
  | some (r, _) => #[.taken r who]
  | none => #[]

/-- What freeing a register adds to the log: nothing if it is free already. -/
def RegisterFile.releaseLog (f : RegisterFile) (r : Register) : Log :=
  match f.resident? r with
  | some who => #[.freed r who]
  | none => #[]

namespace Generator

/-- Add a line. -/
def emit (l : AsmLine) : Lowering Unit :=
  .modify fun g => { g with lines := g.lines.push l, log := g.log.push (.line l) }

/-- Take the lowest free register, if there is one. -/
def allocate (who : Resident) : Lowering Register := fun g =>
  if g.registers.hasFree then
    match g.registers.allocate? who with
    | some (r, file) =>
      (.ok r, { g with
        registers := file
        peak := max g.peak file.bound
        log := g.log ++ g.registers.allocateLog who })
    | none => (.error (.outOfRegisters who), g)
  else (.error (.outOfRegisters who), g)

/-- Free a register. -/
def releaseRegister (r : Register) : Lowering Unit :=
  .modify fun g =>
    { g with registers := g.registers.release r, log := g.log ++ g.registers.releaseLog r }

/-- The register of a variable, a new one if it has none. -/
def registerOf (v : Var) : Lowering Register := do
  match ← .inspect fun g => g.registers.locate? v with
  | some r => pure r
  | none => allocate (.var v)

/-- Free the register of a temporary that has been read. -/
def releaseTemp (v : Var) (r : Register) : Lowering Unit :=
  if v.isTemp then releaseRegister r else pure ()

/-! ## Instructions -/

/-- The side of an operator that a number stands on. -/
inductive Side where
  /-- The number is the left operand. -/
  | left
  /-- The number is the right operand. -/
  | right
  deriving DecidableEq, Repr

/-- The number to add for an operator with a number on one side, if the operator comes down to
adding: a difference adds the negated right operand, unless that is no word. -/
def addend? (op : ArithOp) (imm : Int32) (side : Side) : Option Int32 :=
  match op, side with
  | .add, _ => some imm
  | .sub, .right => if imm = Int32.minValue then none else some (-imm)
  | _, _ => none

/-- An operator on a register and a number, through a register for the number. -/
def throughScratch (op : ArithOp) (rd rs : Register) (imm : Int32) (side : Side) :
    Lowering Unit := do
  let scratch ← allocate .scratch
  emit (.li scratch imm)
  match side with
  | .left => emit (.arith op rd scratch rs)
  | .right => emit (.arith op rd rs scratch)
  releaseRegister scratch

/-- An operator on a register and a number. -/
def withImmediate (op : ArithOp) (rd rs : Register) (imm : Int32) (side : Side) :
    Lowering Unit :=
  match addend? op imm side with
  | some addend =>
    if fitsImmediate addend then emit (.addi rd rs addend)
    else throughScratch op rd rs imm side
  | none => throughScratch op rd rs imm side

/-- An operator. Two numbers are not computed in advance: the left one is loaded into the
destination. -/
def lowerArith (op : ArithOp) (dest : Var) (lhs rhs : Operand) : Lowering Unit :=
  match lhs, rhs with
  | .var lhs, .var rhs => do
    let rs1 ← registerOf lhs
    let rs2 ← registerOf rhs
    let rd ← registerOf dest
    emit (.arith op rd rs1 rs2)
    releaseTemp lhs rs1
    releaseTemp rhs rs2
  | .var lhs, .imm imm => do
    let rs ← registerOf lhs
    let rd ← registerOf dest
    withImmediate op rd rs imm .right
    releaseTemp lhs rs
  | .imm imm, .var rhs => do
    let rs ← registerOf rhs
    let rd ← registerOf dest
    withImmediate op rd rs imm .left
    releaseTemp rhs rs
  | .imm left, .imm right => do
    let rd ← registerOf dest
    emit (.li rd left)
    withImmediate op rd rd right .right

/-- The lines of one instruction. -/
def lower : Instr → Lowering Unit
  | .mov dest (.imm imm) => do
    let rd ← registerOf dest
    emit (.li rd imm)
  | .mov dest (.var src) => do
    let rs ← registerOf src
    let rd ← registerOf dest
    emit (.mv rd rs)
    releaseTemp src rs
  | .arith op dest lhs rhs => lowerArith op dest lhs rhs
  | .ret (.imm imm) => emit (.li .a0 imm)
  | .ret (.var v) => do
    let rs ← registerOf v
    emit (.mv .a0 rs)

/-- The lines of a list of instructions, up to the first that fails. -/
def lowerAll : List Instr → Lowering Unit
  | [] => pure ()
  | i :: code => do
    lower i
    lowerAll code

end Generator

/-- The assembly of code. -/
def generate (code : List Instr) : Except CodegenError (List AsmLine) :=
  match (Generator.lowerAll code).run {} with
  | (.ok _, g) => .ok g.lines.toList
  | (.error e, _) => .error e

end StraightLine
