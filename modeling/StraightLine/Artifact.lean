import StraightLine.Compilation
import StraightLine.Text.Lines

/-!
# Artifacts

A compilation can be written down as files: its tokens, its symbol table before and after types are
bound, its code, the value its code returns, and its assembly. A selection says which of these are
wanted; the files always come in the same order.

## Main definitions

* `Selection` — which artifacts are wanted
* `Selection.ofKinds` — the selection that a list of kinds asks for
* `OutputFile` — a file with its contents, which running the code may fail to give
* `Compilation.outputFiles` — the files of a selection, in order
-/

namespace StraightLine

/-! ## Selections -/

/-- Which artifacts are wanted. -/
structure Selection where
  /-- The tokens. -/
  tokens : Bool := false
  /-- Both symbol tables. -/
  symbols : Bool := false
  /-- The code. -/
  code : Bool := false
  /-- The value that the code returns. -/
  value : Bool := false
  /-- The assembly. -/
  assembly : Bool := false
  deriving DecidableEq, Repr

namespace Selection

/-- No artifact. -/
def empty : Selection := {}

/-- Every artifact. -/
def all : Selection := ⟨true, true, true, true, true⟩

/-- What one or the other selection has. -/
def union (a b : Selection) : Selection where
  tokens := a.tokens || b.tokens
  symbols := a.symbols || b.symbols
  code := a.code || b.code
  value := a.value || b.value
  assembly := a.assembly || b.assembly

/-- The selection as a number, a bit for each artifact from the lowest on. -/
def bits (s : Selection) : Nat :=
  s.tokens.toNat + 2 * s.symbols.toNat + 4 * s.code.toNat + 8 * s.value.toNat +
    16 * s.assembly.toNat

/-- The kind of artifact with a given name. -/
def ofKind? (kind : String) : Option Selection :=
  if kind = "tokens" then some { tokens := true }
  else if kind = "symbols" then some { symbols := true }
  else if kind = "ir" then some { code := true }
  else if kind = "eval" then some { value := true }
  else if kind = "asm" then some { assembly := true }
  else if kind = "all" then some all
  else none

end Selection

/-- A name that is no kind of artifact. -/
structure UnknownArtifact where
  /-- The name. -/
  kind : String
  deriving DecidableEq, Repr

/-- The text of the error. -/
def UnknownArtifact.message (e : UnknownArtifact) : String :=
  "Unknown artifact kind `" ++ e.kind ++ "`"

/-- All that a list of kinds asks for, or the first name in it that is none. -/
def Selection.ofKinds : List String → Except UnknownArtifact Selection
  | [] => .ok empty
  | kind :: kinds =>
    match ofKind? kind with
    | some s => (ofKinds kinds).map s.union
    | none => .error ⟨kind⟩

/-! ## Files -/

/-- A file to be written. -/
structure OutputFile where
  /-- The name of the file. -/
  name : String
  /-- Its contents, or why there are none. -/
  contents : Except EvalError String
  /-- What finding the contents adds to the log. -/
  log : Log := #[]

/-- The value that a program returned, as a line of text. -/
def renderResult : Option Int32 → String
  | some value => renderWord value ++ "\n"
  | none => "no return value\n"

namespace Compilation

/-- The file of the tokens, one to a line. -/
def tokenFile (c : Compilation) : OutputFile where
  name := "token.txt"
  contents := .ok (unlines (c.tokens.map Token.render))

/-- The file of the names before types are bound. -/
def scannedSymbolsFile (c : Compilation) : OutputFile where
  name := "old_symbol_table.txt"
  contents := .ok c.scannedSymbols.render

/-- The file of the names with their types. -/
def symbolsFile (c : Compilation) : OutputFile where
  name := "new_symbol_table.txt"
  contents := .ok c.symbols.render

/-- The file of the code, one instruction to a line. -/
def codeFile (c : Compilation) : OutputFile where
  name := "intermediate_code.txt"
  contents := .ok (unlines (c.code.map Instr.render))

/-- The file of the value that the code returns. -/
def valueFile (c : Compilation) : OutputFile where
  name := "ir_emulate_result.txt"
  contents := c.evaluate.result.map renderResult
  log := c.evaluate.log

/-- The assembly as a text, one line after another. -/
def assemblyText (c : Compilation) : String :=
  unlines (c.assembly.map AsmLine.render)

/-- The file of the assembly. -/
def assemblyFile (c : Compilation) : OutputFile where
  name := "assembly_language.asm"
  contents := .ok c.assemblyText

/-- The files of a selection, in the order in which they are written. -/
def outputFiles (c : Compilation) (s : Selection) : List OutputFile :=
  (if s.tokens then [c.tokenFile] else []) ++
  (if s.symbols then [c.scannedSymbolsFile, c.symbolsFile] else []) ++
  (if s.code then [c.codeFile] else []) ++
  (if s.value then [c.valueFile] else []) ++
  (if s.assembly then [c.assemblyFile] else [])

end Compilation

end StraightLine
