import StraightLine.Analysis.Emission
import StraightLine.Analysis.Typing
import StraightLine.Code.Run
import StraightLine.Error

/-!
# Compiling a program

The stages run one after another, each on the whole output of the one before: the text becomes
tokens and a symbol table, the tokens are parsed while types are bound and code is emitted, and the
code becomes assembly. The first failure of a stage is the failure of the compilation.

## Main definitions

* `Compilation` — all that a successful compilation leaves behind
* `analyse` — parse tokens, bind types and emit code
* `compileLogged` — compile a text, logging every stage
* `compile` — compile a text
* `Compilation.evaluate` — run the code of a compilation
-/

namespace StraightLine

/-! ## Stages -/

/-- What reading a text adds to the log: its tokens without the end token. -/
def Scan.log (s : Scan) : Log :=
  (s.results.filterMap fun
    | .ok .eof => none
    | .ok t => some (.token t)
    | .error _ => none).toArray

/-- What running code adds to the log. -/
def Run.log (r : Run) : Log :=
  (r.begun.map .executing).toArray

/-- Log every event, then bind types, then emit code. -/
def analyst : Observer Analysis SemanticError :=
  (Observer.both typeBinder codeEmitter).noting fun e a => { a with log := a.log.push (.event e) }

/-- Parse tokens, bind types and emit code. The analysis has what was done up to a failure. -/
def analyse (tokens : List Token) (symbols : SymbolTable) :
    Except (ParseError SemanticError) Unit × Analysis :=
  (parse analyst tokens).run { symbols }

/-! ## All stages together -/

/-- What a successful compilation leaves behind. -/
structure Compilation where
  /-- The tokens of the text, the end token included. -/
  tokens : List Token
  /-- The names of the text, before any has a type. -/
  scannedSymbols : SymbolTable
  /-- The names with the types that were declared. -/
  symbols : SymbolTable
  /-- The code. -/
  code : List Instr
  /-- The assembly. -/
  assembly : List AsmLine

/-- Add entries to a log. -/
def Log.tell {ε : Type} (entries : Log) : Action Log ε Unit :=
  .modify (· ++ entries)

/-- Compile a text, logging every stage. -/
def compileLogged (source : String) : Action Log CompileError Compilation := do
  let scan := Scan.ofString source .empty
  Log.tell scan.log
  let tokens ← .ofExcept (scan.tokens.mapError .lexical)
  Log.tell #[.scanned tokens.length scan.symbols.size]
  let (parsed, analysis) := analyse tokens scan.symbols
  Log.tell analysis.log
  .ofExcept (parsed.mapError .ofParse)
  let code := analysis.code.toList
  Log.tell #[.analysed code.length]
  let (lowered, generator) := (Generator.lowerAll code).run {}
  Log.tell generator.log
  .ofExcept (lowered.mapError .codegen)
  let assembly := generator.lines.toList
  Log.tell #[.assembled assembly.length]
  return {
    tokens
    scannedSymbols := scan.symbols
    symbols := analysis.symbols
    code
    assembly }

/-- Compile a text. -/
def compile (source : String) : Except CompileError Compilation :=
  ((compileLogged source).run #[]).1

/-- Run the code of a compilation. -/
def Compilation.evaluate (c : Compilation) : Run :=
  StraightLine.evaluate c.code

end StraightLine
