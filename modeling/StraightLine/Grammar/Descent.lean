import StraightLine.Grammar.Parse

/-!
# Recursive descent

The grammar read by one function for each kind of phrase. A function looks at the next token,
shifts it or calls the function of another phrase, and reduces when its own phrase is complete. The
left-recursive rules of expressions and terms are loops.

## Main definitions

* `Descent` — an action on the tokens ahead and on the state of an observer
* `Descent.peek`, `Descent.shift`, `Descent.reduce`, `Descent.expect` — what every function uses
* `Descent.expression`, `Descent.term`, `Descent.factor` — the phrases of an expression
* `Descent.statement`, `Descent.program` — the phrases of a program
* `Descent.parse` — a whole token list

## Implementation notes

Each function of an expression has a bound on the number of tokens ahead. A function goes on only
behind a token that it has shifted, so the bound is lower there; where it is zero there is no token
to look at.
-/

namespace StraightLine

/-- An action on the tokens ahead, together with the state of an observer. -/
abbrev Descent (σ ε α : Type) := Action (List Token × σ) (ParseError ε) α

namespace Descent

variable {σ ε α : Type} (o : Observer σ ε)

/-! ## Tokens and events -/

/-- The next token. -/
def peek : Descent σ ε Token := fun s =>
  match s.1 with
  | [] => (.error .unexpectedEnd, s)
  | t :: _ => (.ok t, s)

/-- Tell the observer an event. -/
def tell (e : Event) : Descent σ ε Unit := fun s =>
  let (r, s') := ((o.notify e).mapError .action).run s.2
  (r, s.1, s')

/-- Take the next token. -/
def shift : Descent σ ε Unit := do
  let t ← peek
  .modify fun s => (s.1.tail, s.2)
  tell o (.shift t)

/-- Complete a phrase. -/
def reduce (p : Production) : Descent σ ε Unit :=
  tell o (.reduce p)

/-- The next token is not what was due. -/
def unexpected (expected : String) : Descent σ ε α := do
  let found ← peek
  .fail (.unexpectedToken expected found)

/-- Take the next token, which must be the given one. -/
def expect (t : Token) (expected : String) : Descent σ ε Unit := do
  if (← peek) = t then shift o else unexpected expected

/-- Take the next token, which must be a name. -/
def expectName : Descent σ ε Unit := do
  match ← peek with
  | .ident _ => shift o
  | _ => unexpected "an identifier"

/-! ## Expressions -/

mutual

/-- An expression: terms with plus and minus signs between them. -/
def expression (n : Nat) : Descent σ ε Unit := do
  term n
  reduce o .expression
  sums n
termination_by (n, 2)

/-- What follows the first term of an expression. -/
def sums : Nat → Descent σ ε Unit
  | 0 => .fail .unexpectedEnd
  | n + 1 => do
    match ← peek with
    | .plus =>
      shift o
      term n
      reduce o .add
      sums n
    | .minus =>
      shift o
      term n
      reduce o .sub
      sums n
    | _ => pure ()
termination_by n => (n, 0)

/-- A term: factors with asterisks between them. -/
def term (n : Nat) : Descent σ ε Unit := do
  factor n
  reduce o .term
  products n
termination_by (n, 1)

/-- What follows the first factor of a term. -/
def products : Nat → Descent σ ε Unit
  | 0 => .fail .unexpectedEnd
  | n + 1 => do
    match ← peek with
    | .times =>
      shift o
      factor n
      reduce o .mul
      products n
    | _ => pure ()
termination_by n => (n, 0)

/-- A factor: an expression in parentheses, a name or a literal. -/
def factor : Nat → Descent σ ε Unit
  | 0 => .fail .unexpectedEnd
  | n + 1 => do
    match ← peek with
    | .openParen =>
      shift o
      expression n
      expect o .closeParen "`)`"
      reduce o .paren
    | .ident _ =>
      shift o
      reduce o .name
    | .literal _ =>
      shift o
      reduce o .literal
    | _ => unexpected "an expression"
termination_by n => (n, 0)

end

/-! ## Programs -/

/-- A statement without its semicolon. -/
def statement (n : Nat) : Descent σ ε Unit := do
  match ← peek with
  | .keyword .int =>
    shift o
    reduce o .declarator
    expectName o
    reduce o .declaration
  | .keyword .ret =>
    shift o
    expression o n
    reduce o .ret
  | .ident _ =>
    shift o
    expect o .assign "`=`"
    expression o n
    reduce o .assignment
  | _ => unexpected "a statement"

/-- Statements up to the end token, each with its semicolon: how many there are, with those that
were there before. -/
def statements : Nat → Nat → Descent σ ε Nat
  | 0, _ => .fail .unexpectedEnd
  | n + 1, complete => do
    statement o n
    expect o .semicolon "`;`"
    if (← peek) = .eof then return complete + 1
    else statements n (complete + 1)

/-- Complete lists of statements, from the inside out. -/
def reduceLists : Nat → Descent σ ε Unit
  | 0 => pure ()
  | n + 1 => do
    reduce o .statementList
    reduceLists n

/-- Complete a program with a given number of statements. -/
def finish (complete : Nat) : Descent σ ε Unit := do
  reduce o .lastStatement
  reduceLists o (complete - 1)
  reduce o .program
  tell o .accept

/-- A program: all statements are read before the first list of them is complete. -/
def program (n : Nat) : Descent σ ε Unit := do
  let complete ← statements o n 0
  finish o complete

/-- Recognise a program at the beginning of a token list, telling the observer every event. -/
def parse (tokens : List Token) : Action σ (ParseError ε) Unit := fun s =>
  let (r, _, s') := (program o tokens.length).run (tokens, s)
  (r, s')

end Descent

end StraightLine
