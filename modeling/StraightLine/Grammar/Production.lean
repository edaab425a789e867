import StraightLine.Token

/-!
# The grammar

Programs are lists of statements, each ended by a semicolon. A statement declares a name, assigns an
expression to a name, or returns an expression. Expressions have the usual three levels: sums and
differences of terms, products of factors, and factors, which are names, literals and expressions in
parentheses. Both levels of operators associate to the left.

## Main definitions

* `Nonterminal`, `GrammarSymbol` — what a production is made of
* `Production` — the fifteen rules, each with its head and body
-/

namespace StraightLine

/-- The syntactic categories. -/
inductive Nonterminal where
  /-- A whole program. -/
  | program
  /-- One or more statements, each with its semicolon. -/
  | statements
  /-- A statement without its semicolon. -/
  | statement
  /-- The type in front of a declared name. -/
  | declarator
  /-- Sums and differences. -/
  | expression
  /-- Products. -/
  | term
  /-- Operands. -/
  | factor
  deriving DecidableEq, Repr

/-- The name of a category in listings. -/
def Nonterminal.name : Nonterminal → String
  | .program => "P"
  | .statements => "S_list"
  | .statement => "S"
  | .declarator => "D"
  | .expression => "E"
  | .term => "A"
  | .factor => "B"

/-- A member of the body of a production. -/
inductive GrammarSymbol where
  /-- A token of the given kind. -/
  | terminal (kind : Token.Kind)
  /-- A phrase of the given category. -/
  | nonterminal (category : Nonterminal)
  deriving DecidableEq, Repr

/-- The name of a symbol in listings. -/
def GrammarSymbol.name : GrammarSymbol → String
  | .terminal kind => kind.name
  | .nonterminal category => category.name

/-- The rules of the grammar. -/
inductive Production where
  /-- A program is a list of statements. -/
  | program
  /-- A statement in front of a list. -/
  | statementList
  /-- The last statement of a list. -/
  | lastStatement
  /-- A declaration. -/
  | declaration
  /-- The type of a declaration. -/
  | declarator
  /-- An assignment. -/
  | assignment
  /-- A return statement. -/
  | ret
  /-- A sum. -/
  | add
  /-- A difference. -/
  | sub
  /-- A term as an expression. -/
  | expression
  /-- A product. -/
  | mul
  /-- A factor as a term. -/
  | term
  /-- An expression in parentheses. -/
  | paren
  /-- A name as a factor. -/
  | name
  /-- A literal as a factor. -/
  | literal
  deriving DecidableEq, Repr

namespace Production

/-- The category that a production builds. -/
def head : Production → Nonterminal
  | program => .program
  | statementList | lastStatement => .statements
  | declaration | assignment | ret => .statement
  | declarator => .declarator
  | add | sub | expression => .expression
  | mul | term => .term
  | paren | name | literal => .factor

/-- What a production builds it from. -/
def body : Production → List GrammarSymbol
  | program => [.nonterminal .statements]
  | statementList => [.nonterminal .statement, .terminal .semicolon, .nonterminal .statements]
  | lastStatement => [.nonterminal .statement, .terminal .semicolon]
  | declaration => [.nonterminal .declarator, .terminal .ident]
  | declarator => [.terminal (.keyword .int)]
  | assignment => [.terminal .ident, .terminal .assign, .nonterminal .expression]
  | ret => [.terminal (.keyword .ret), .nonterminal .expression]
  | add => [.nonterminal .expression, .terminal .plus, .nonterminal .term]
  | sub => [.nonterminal .expression, .terminal .minus, .nonterminal .term]
  | expression => [.nonterminal .term]
  | mul => [.nonterminal .term, .terminal .times, .nonterminal .factor]
  | term => [.nonterminal .factor]
  | paren => [.terminal .openParen, .nonterminal .expression, .terminal .closeParen]
  | name => [.terminal .ident]
  | literal => [.terminal .literal]

/-- The number of symbols in the body. -/
def arity (p : Production) : Nat :=
  p.body.length

/-- A production in a listing: head, arrow, body. -/
def render (p : Production) : String :=
  p.head.name ++ " ->" ++ String.join (p.body.map fun s => " " ++ s.name)

end Production

end StraightLine
