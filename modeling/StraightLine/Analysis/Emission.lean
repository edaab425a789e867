import StraightLine.Analysis.State

/-!
# Expressions become code

The observer that emits code keeps, for every phrase, the operand that holds its value: a number, a
variable, or the temporary that an operator's result was put in. Every operator emits one
instruction with a temporary of its own; nothing is computed in advance. Parentheses and the
productions that only pass a value on emit nothing.

## Main definitions

* `valueReduction` — the cell that a reduction leaves, and the instruction that it emits
* `Analysis.append` — add an instruction to the code
* `codeEmitter` — the observer

## Implementation notes

A reduction works on the cells alone and only says what is to be emitted. So when it fails, the code
and the supply of temporaries are as they were.
-/

namespace StraightLine

open AttributeStack

/-- Take a cell that must be a name. -/
def popName (p : Production) : StackAction Operand String := do
  match ← popToken p "a terminal" with
  | .ident name => pure name
  | _ => .fail (.unexpectedAttribute p "an identifier")

/-- The variable of a name, which must be in the symbol table. -/
def resolve (symbols : SymbolTable) (name : String) : StackAction Operand Var :=
  if symbols.contains name then pure (.named name) else .fail (.undefined name)

/-- An operator takes its right operand, its sign and its left operand. Its value is in the
temporary. -/
def arithReduction (temp : Var) (op : ArithOp) (p : Production) :
    StackAction Operand (Cell Operand × Option Instr) := do
  let rhs ← popValue p "a value"
  let _ ← pop p
  let lhs ← popValue p "a value"
  return (.value (.var temp), some (.arith op temp lhs rhs))

/-- What a reduction does to the cells: the cell of its head and the instruction it emits, if any.
The symbol table tells which names there are, and `temp` is the next temporary. -/
def valueReduction (symbols : SymbolTable) (temp : Var) (p : Production) :
    StackAction Operand (Cell Operand × Option Instr) :=
  match p with
  | .assignment => do
    let src ← popValue p "a value"
    let _ ← pop p
    let name ← popName p
    let dest ← resolve symbols name
    return (.blank, some (.mov dest src))
  | .ret => do
    let value ← popValue p "a value"
    let _ ← pop p
    return (.blank, some (.ret value))
  | .add => arithReduction temp .add p
  | .sub => arithReduction temp .sub p
  | .mul => arithReduction temp .mul p
  | .expression | .term => do
    let value ← popValue p "a value"
    return (.value value, none)
  | .paren => do
    let _ ← pop p
    let value ← popValue p "a value"
    let _ ← pop p
    return (.value value, none)
  | .name => do
    let name ← popName p
    let v ← resolve symbols name
    return (.value (.var v), none)
  | .literal => do
    match ← popToken p "a terminal" with
    | .literal text =>
      match Decimal.toInt32? text with
      | some value => return (.value (.imm value), none)
      | none => .fail (.badLiteral text)
    | _ => .fail (.unexpectedAttribute p "an integer literal")
  | .program | .statementList | .lastStatement | .declaration | .declarator => do
    discard p
    return (.blank, none)

/-- Whether an instruction uses up the next temporary. -/
def Instr.isArith : Instr → Bool
  | .arith .. => true
  | _ => false

/-- Add an instruction to the code. -/
def Analysis.append (a : Analysis) (i : Instr) : Analysis :=
  { a with
    code := a.code.push i
    nextTemp := if i.isArith then a.nextTemp + 1 else a.nextTemp
    log := a.log.push (.emitted i) }

/-- Push a cell on the stack of the observer that emits code. -/
def Analysis.pushValue (c : Cell Operand) : Action Analysis SemanticError Unit :=
  .modify fun a => { a with valueCells := c :: a.valueCells }

/-- Emits code. -/
def codeEmitter : Observer Analysis SemanticError where
  notify
    | .shift t => Analysis.pushValue (.token t)
    | .reduce p => do
      let symbols ← .inspect Analysis.symbols
      let temp ← .inspect fun a => Var.temp a.nextTemp
      let (cell, emitted) ← Analysis.onValues (valueReduction symbols temp p)
      match emitted with
      | some i => .modify (·.append i)
      | none => pure ()
      Analysis.pushValue cell
    | .accept => Analysis.onValues takeLast

end StraightLine
