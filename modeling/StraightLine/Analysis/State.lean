import StraightLine.Analysis.AttributeStack
import StraightLine.Log

/-!
# The state of an analysis

Two observers give a program its meaning while it is parsed: one gives types to declared names, one
emits code. They share the symbol table and the log; each has an attribute stack of its own, and the
code and the supply of temporaries belong to the second.

## Main definitions

* `Analysis` — what both observers keep
* `Analysis.onTypes`, `Analysis.onValues` — an action on one of the stacks, within the whole
-/

namespace StraightLine

/-- What the observers of a parse have worked out so far. -/
structure Analysis where
  /-- The names of the program. -/
  symbols : SymbolTable
  /-- The cells of the observer of declarations. -/
  typeCells : List (Cell SourceType) := []
  /-- The cells of the observer that emits code. -/
  valueCells : List (Cell Operand) := []
  /-- The code emitted so far. -/
  code : Array Instr := #[]
  /-- The number of the next temporary. -/
  nextTemp : UInt32 := 0
  /-- What happened so far. -/
  log : Log := #[]

namespace Analysis

/-- Run an action on the cells of the observer of declarations. -/
def onTypes {α : Type} (x : StackAction SourceType α) : Action Analysis SemanticError α := fun a =>
  let (r, cells) := x.run a.typeCells
  (r, { a with typeCells := cells })

/-- Run an action on the cells of the observer that emits code. -/
def onValues {α : Type} (x : StackAction Operand α) : Action Analysis SemanticError α := fun a =>
  let (r, cells) := x.run a.valueCells
  (r, { a with valueCells := cells })

end Analysis

end StraightLine
