import StraightLine.Action
import StraightLine.Grammar.Production
import StraightLine.Text.Decimal

/-!
# Attribute stacks

An observer that computes something from a parse keeps a stack of cells beside the parse: a shift
pushes the token, a reduction takes the cells of the production's body and pushes one for its head.
A cell that is not there or not of the kind needed is an error; the cells taken before it stay
taken.

## Main definitions

* `SemanticError` — what can go wrong while a program is given a meaning
* `Cell` — a token, a computed value, or nothing
* `StackAction` — an action on a stack of cells
* `AttributeStack.pop`, `popToken`, `popValue`, `discard` — take cells off
* `AttributeStack.takeLast` — the end of a program, which must find one cell
-/

namespace StraightLine

/-- What can go wrong while a program is given a meaning. -/
inductive SemanticError where
  /-- A name is used that is not in the symbol table. -/
  | undefined (name : String)
  /-- A name is declared that is not in the symbol table. -/
  | unboundDeclaration (name : String)
  /-- A literal denotes no word. -/
  | badLiteral (text : String)
  /-- A reduction found too few cells. -/
  | stackUnderflow (p : Production)
  /-- A reduction found a cell of another kind. -/
  | unexpectedAttribute (p : Production) (expected : String)
  /-- The program ended with another number of cells than one. -/
  | unbalancedAccept (cells : Nat)
  deriving DecidableEq, Repr

/-- The text of a semantic error. -/
def SemanticError.message : SemanticError → String
  | .undefined name => "Symbol `" ++ name ++ "` is undefined"
  | .unboundDeclaration name => "Cannot bind a type to unregistered symbol `" ++ name ++ "`"
  | .badLiteral text => "Invalid integer literal `" ++ text ++ "`"
  | .stackUnderflow p => "Attribute stack underflow while reducing `" ++ p.render ++ "`"
  | .unexpectedAttribute p expected =>
    "Reduction `" ++ p.render ++ "` expected " ++ expected ++ " on the attribute stack"
  | .unbalancedAccept cells =>
    "Accepted with " ++ Decimal.ofNat cells ++
      " attribute cells on the stack, expected exactly one"

/-- What a symbol of the parse carries. -/
inductive Cell (α : Type) where
  /-- A shifted token. -/
  | token (t : Token)
  /-- A computed value. -/
  | value (a : α)
  /-- A phrase without a value. -/
  | blank
  deriving DecidableEq, Repr

/-- An action on a stack of cells, the top first. -/
abbrev StackAction (α β : Type) := Action (List (Cell α)) SemanticError β

namespace AttributeStack

variable {α : Type}

/-- Take the top cell. -/
def pop (p : Production) : StackAction α (Cell α)
  | [] => (.error (.stackUnderflow p), [])
  | c :: cells => (.ok c, cells)

/-- Take the top cell, which must be a value. -/
def popValue (p : Production) (expected : String) : StackAction α α := do
  match ← pop p with
  | .value a => pure a
  | _ => .fail (.unexpectedAttribute p expected)

/-- Take the top cell, which must be a token. -/
def popToken (p : Production) (expected : String) : StackAction α Token := do
  match ← pop p with
  | .token t => pure t
  | _ => .fail (.unexpectedAttribute p expected)

/-- Take as many cells as the body of a production has symbols, or none at all. -/
def discard (p : Production) : StackAction α Unit := fun cells =>
  if cells.length < p.arity then (.error (.stackUnderflow p), cells)
  else (.ok (), cells.drop p.arity)

/-- Take the only cell there is. -/
def takeLast : StackAction α Unit := fun cells =>
  if cells.length = 1 then (.ok (), []) else (.error (.unbalancedAccept cells.length), cells)

end AttributeStack

end StraightLine
