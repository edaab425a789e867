import StraightLine.Code.Instr

/-!
# Assembly lines

The registers and the few instructions of RISC-V that generated code is made of.

## Main definitions

* `Register` — temporary registers and the register of the return value
* `AsmLine` — one instruction
* `fitsImmediate` — whether a number fits the immediate field of `addi`
-/

namespace StraightLine

/-- A register of the machine. -/
inductive Register where
  /-- A temporary register by number. -/
  | t (number : Nat)
  /-- The register of the return value. -/
  | a0
  deriving DecidableEq, Repr

/-- The name of a register. -/
def Register.render : Register → String
  | .t number => "t" ++ Decimal.ofNat number
  | .a0 => "a0"

/-- One instruction of assembly. -/
inductive AsmLine where
  /-- Load a number. -/
  | li (rd : Register) (imm : Int32)
  /-- Copy a register. -/
  | mv (rd rs : Register)
  /-- Add a small number to a register. -/
  | addi (rd rs1 : Register) (imm : Int32)
  /-- Apply an operator to two registers. -/
  | arith (op : ArithOp) (rd rs1 rs2 : Register)
  deriving DecidableEq, Repr

/-- The name of an operator in assembly. -/
def ArithOp.mnemonic : ArithOp → String
  | .add => "add"
  | .sub => "sub"
  | .mul => "mul"

/-- A line as text. -/
def AsmLine.render : AsmLine → String
  | .li rd imm => "li " ++ rd.render ++ ", " ++ renderWord imm
  | .mv rd rs => "mv " ++ rd.render ++ ", " ++ rs.render
  | .addi rd rs1 imm => "addi " ++ rd.render ++ ", " ++ rs1.render ++ ", " ++ renderWord imm
  | .arith op rd rs1 rs2 =>
    op.mnemonic ++ " " ++ rd.render ++ ", " ++ rs1.render ++ ", " ++ rs2.render

/-- Whether a number fits the twelve bits, sign included, that `addi` has for it. -/
def fitsImmediate (imm : Int32) : Bool :=
  -2048 ≤ imm && imm ≤ 2047

end StraightLine
