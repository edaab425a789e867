import StraightLine.Analysis.AttributeStack
import StraightLine.Assembly.Generator
import StraightLine.Grammar.Parse
import StraightLine.Token.Lexer

/-!
# Compilation errors

The first failure of any stage ends a compilation. What an observer refuses during the parse is not
the parser's error but that of the stage that refused.

## Main definitions

* `CompileError` — an error of one of the stages
* `CompileError.ofParse` — the error of a parse, a refusal going to the stage it comes from
* `CompileError.category`, `CompileError.message` — how it is reported
-/

namespace StraightLine

/-- Why a program does not compile. -/
inductive CompileError where
  /-- The text has no tokens. -/
  | lexical (e : LexError)
  /-- The tokens are no program. -/
  | grammatical (e : ParseError SemanticError)
  /-- The program has no meaning. -/
  | semantic (e : SemanticError)
  /-- The code has no assembly. -/
  | codegen (e : CodegenError)
  deriving DecidableEq, Repr

namespace CompileError

/-- The error of a parse. -/
def ofParse : ParseError SemanticError → CompileError
  | .action e => .semantic e
  | e => .grammatical e

/-- The kind of an error, for reports. -/
def category : CompileError → String
  | lexical _ => "Lexical error"
  | grammatical _ => "Syntax error"
  | semantic (.undefined _) => "Symbol resolution error"
  | semantic _ => "Semantic error"
  | codegen _ => "Code generation error"

/-- The text of an error. -/
def message : CompileError → String
  | lexical e => e.message
  | grammatical e => e.message SemanticError.message
  | semantic e => e.message
  | codegen e => e.message

end CompileError

end StraightLine
