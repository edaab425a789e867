import StraightLine.Text.Decimal

/-!
# Straight-line code

The code between source and assembly: a list of instructions, run from first to last. Variables are
those of the source or temporaries, which hold the results of operators inside an expression.
Numbers are signed words of 32 bits and arithmetic wraps around, as on the target machine.

## Main definitions

* `Var`, `Operand`, `ArithOp`, `Instr` — the parts of the code
* `ArithOp.apply` — arithmetic on words
-/

namespace StraightLine

/-- A variable of the code. -/
inductive Var where
  /-- A variable of the source. -/
  | named (name : String)
  /-- The numbered result of an operator. -/
  | temp (id : UInt32)
  deriving DecidableEq, Repr

/-- Whether a variable holds the result of an operator. -/
def Var.isTemp : Var → Bool
  | .named _ => false
  | .temp _ => true

/-- A variable in a listing. -/
def Var.render : Var → String
  | .named name => name
  | .temp id => "$" ++ Decimal.ofNat id.toNat

/-- What an instruction reads. -/
inductive Operand where
  /-- A number. -/
  | imm (value : Int32)
  /-- The value of a variable. -/
  | var (v : Var)
  deriving DecidableEq, Repr

/-- A word in a listing. -/
def renderWord (value : Int32) : String :=
  Decimal.ofInt value.toInt

/-- An operand in a listing. -/
def Operand.render : Operand → String
  | .imm value => renderWord value
  | .var v => v.render

/-- The arithmetic operators. -/
inductive ArithOp where
  /-- Sum. -/
  | add
  /-- Difference. -/
  | sub
  /-- Product. -/
  | mul
  deriving DecidableEq, Repr

/-- An operator on words, modulo `2 ^ 32`. -/
def ArithOp.apply : ArithOp → Int32 → Int32 → Int32
  | .add, x, y => x + y
  | .sub, x, y => x - y
  | .mul, x, y => x * y

/-- The name of an operator in listings of code. -/
def ArithOp.name : ArithOp → String
  | .add => "Add"
  | .sub => "Sub"
  | .mul => "Mul"

/-- An instruction. -/
inductive Instr where
  /-- Copy a value to a variable. -/
  | mov (dest : Var) (src : Operand)
  /-- Apply an operator and keep the result in a variable. -/
  | arith (op : ArithOp) (dest : Var) (lhs rhs : Operand)
  /-- End the program with a value. -/
  | ret (value : Operand)
  deriving DecidableEq, Repr

/-- An instruction in a listing. -/
def Instr.render : Instr → String
  | .mov dest src => "Mov " ++ dest.render ++ ", " ++ src.render
  | .arith op dest lhs rhs =>
    op.name ++ " " ++ dest.render ++ ", " ++ lhs.render ++ ", " ++ rhs.render
  | .ret value => "Ret " ++ value.render

end StraightLine
