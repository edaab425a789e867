import StraightLine.Analysis.Emission
import StraightLine.Analysis.Typing

/-!
# Reductions with their effects in place

The two observers of an analysis, with every effect where a reduction comes to it: the symbol table
is consulted when a name has been taken off the stack, a temporary is used up when both operands are
there, and an instruction or a type is recorded before the cell of the head is pushed.

## Main definitions

* `InPlace.resolve`, `InPlace.temp`, `InPlace.emit` — the effects of a reduction that emits code
* `InPlace.valueCell` — a reduction that emits code, up to the cell of its head
* `InPlace.typeCell` — a reduction that gives types, up to the cell of its head
* `InPlace.codeEmitter`, `InPlace.typeBinder`, `InPlace.analyst` — the observers
-/

namespace StraightLine

namespace InPlace

open Analysis AttributeStack

/-! ## Emitting code -/

/-- Take a cell that must be a value. -/
def value (p : Production) : Action Analysis SemanticError Operand :=
  onValues (popValue p "a value")

/-- Take a cell that must be a token. -/
def terminal (p : Production) : Action Analysis SemanticError Token :=
  onValues (popToken p "a terminal")

/-- Take a cell that must be a name. -/
def name (p : Production) : Action Analysis SemanticError String :=
  onValues (popName p)

/-- Take a cell of any kind. -/
def skip (p : Production) : Action Analysis SemanticError Unit := do
  let _ ← onValues (pop p)

/-- The variable of a name, which must be in the symbol table by now. -/
def resolve (name : String) : Action Analysis SemanticError Var := do
  if (← .inspect Analysis.symbols).contains name then return .named name
  else .fail (.undefined name)

/-- A temporary that has not been used. -/
def temp : Action Analysis SemanticError Var := do
  let next ← .inspect Analysis.nextTemp
  .modify fun a => { a with nextTemp := next + 1 }
  return .temp next

/-- Add an instruction to the code. -/
def emit (i : Instr) : Action Analysis SemanticError Unit :=
  .modify fun a => { a with code := a.code.push i, log := a.log.push (.emitted i) }

/-- An operator takes its right operand, its sign and its left operand, and puts its value in a
temporary. -/
def binary (p : Production) (op : ArithOp) : Action Analysis SemanticError (Cell Operand) := do
  let rhs ← value p
  skip p
  let lhs ← value p
  let dest ← temp
  emit (.arith op dest lhs rhs)
  return .value (.var dest)

/-- What a reduction does up to the cell of its head. -/
def valueCell (p : Production) : Action Analysis SemanticError (Cell Operand) :=
  match p with
  | .assignment => do
    let src ← value p
    skip p
    let target ← name p
    let dest ← resolve target
    emit (.mov dest src)
    return .blank
  | .ret => do
    let result ← value p
    skip p
    emit (.ret result)
    return .blank
  | .add => binary p .add
  | .sub => binary p .sub
  | .mul => binary p .mul
  | .expression | .term => return .value (← value p)
  | .paren => do
    skip p
    let inner ← value p
    skip p
    return .value inner
  | .name => do
    let target ← name p
    return .value (.var (← resolve target))
  | .literal => do
    match ← terminal p with
    | .literal text =>
      match Decimal.toInt32? text with
      | some word => return .value (.imm word)
      | none => .fail (.badLiteral text)
    | _ => .fail (.unexpectedAttribute p "an integer literal")
  | .program | .statementList | .lastStatement | .declaration | .declarator => do
    onValues (discard p)
    return .blank

/-- Emits code. -/
def codeEmitter : Observer Analysis SemanticError where
  notify
    | .shift t => pushValue (.token t)
    | .reduce p => do pushValue (← valueCell p)
    | .accept => onValues takeLast

/-! ## Giving types -/

/-- What a reduction does up to the cell of its head. -/
def typeCell (p : Production) : Action Analysis SemanticError (Cell SourceType) :=
  match p with
  | .declarator => do
    let _ ← onTypes (pop p)
    return .value .int
  | .declaration => do
    let declared ← onTypes (popDeclaredName p)
    let type ← onTypes (popValue p "a type")
    bindType declared type
    return .blank
  | _ => do
    onTypes (discard p)
    return .blank

/-- Gives types to declared names. -/
def typeBinder : Observer Analysis SemanticError where
  notify
    | .shift t => pushType (.token t)
    | .reduce p => do pushType (← typeCell p)
    | .accept => onTypes takeLast

/-- Log every event, then bind types, then emit code. -/
def analyst : Observer Analysis SemanticError :=
  (Observer.both typeBinder codeEmitter).noting fun e a => { a with log := a.log.push (.event e) }

end InPlace

end StraightLine
