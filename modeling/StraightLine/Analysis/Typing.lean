import StraightLine.Analysis.State

/-!
# Declarations give types

The observer of declarations gives the declared type to the declared name, which must be in the
symbol table. A name may be declared again: the last declaration stands. Every other production only
keeps the stack in step with the parse.

## Main definitions

* `typeReduction` — the cell that a reduction leaves, and the declaration that it completes
* `Analysis.bindType` — give a type to a name
* `typeBinder` — the observer
-/

namespace StraightLine

open AttributeStack

/-- Take a cell that must be a name. -/
def popDeclaredName (p : Production) : StackAction SourceType String := do
  match ← pop p with
  | .token (.ident name) => pure name
  | _ => .fail (.unexpectedAttribute p "an identifier")

/-- What a reduction does to the cells: the cell of its head and, for a declaration, the name with
its type. -/
def typeReduction (p : Production) :
    StackAction SourceType (Cell SourceType × Option (String × SourceType)) :=
  match p with
  | .declarator => do
    let _ ← pop p
    return (.value .int, none)
  | .declaration => do
    let name ← popDeclaredName p
    let type ← popValue p "a type"
    return (.blank, some (name, type))
  | _ => do
    discard p
    return (.blank, none)

/-- Give a type to a name in the symbol table. -/
def Analysis.bindType (name : String) (type : SourceType) : Action Analysis SemanticError Unit :=
  fun a =>
    match a.symbols.find? name with
    | none => (.error (.unboundDeclaration name), a)
    | some previous =>
      let log := match previous with
        | some old => a.log.push (.redeclared name old)
        | none => a.log
      (.ok (), { a with
        symbols := a.symbols.declare name type
        log := log.push (.typed name type) })

/-- Push a cell on the stack of the observer of declarations. -/
def Analysis.pushType (c : Cell SourceType) : Action Analysis SemanticError Unit :=
  .modify fun a => { a with typeCells := c :: a.typeCells }

/-- Gives types to declared names. -/
def typeBinder : Observer Analysis SemanticError where
  notify
    | .shift t => Analysis.pushType (.token t)
    | .reduce p => do
      let (cell, declared) ← Analysis.onTypes (typeReduction p)
      match declared with
      | some (name, type) => Analysis.bindType name type
      | none => pure ()
      Analysis.pushType cell
    | .accept => Analysis.onTypes takeLast

end StraightLine
