import StraightLine.Grammar.Observer

/-!
# Recognising programs

The grammar is recognised from left to right with one token in view. Where the reader stands is a
`Reading`: what is due next, inside which open parentheses, and how many statements are complete. A
token moves the reading on and gives the events that it settles. A phrase is reduced as soon as its
last token is in view, except that a term is complete only at a token other than `*`, so an
expression is reduced together with the events of the token that follows it.

## Main definitions

* `Reading` — a position in a program, `Reading.start` at its beginning
* `Reading.advance` — the events and the next position that a token leads to
* `ParseError` — why a token list is no program
* `parse` — run over a token list, telling an observer every event

## Implementation notes

`advance` looks at one token and recurses over nothing, so `parse` is a plain recursion on the token
list. Tokens behind the end token are never looked at.
-/

namespace StraightLine

/-! ## Positions -/

/-- What a term is to the expression it stands in. -/
inductive TermRole where
  /-- The first term. -/
  | first
  /-- Behind a plus sign. -/
  | addend
  /-- Behind a minus sign. -/
  | subtrahend
  deriving DecidableEq, Repr

/-- What a term completes. -/
def TermRole.production : TermRole → Production
  | .first => .expression
  | .addend => .add
  | .subtrahend => .sub

/-- What a factor is to the term it stands in. -/
inductive FactorRole where
  /-- The first factor. -/
  | first
  /-- Behind an asterisk. -/
  | multiplier
  deriving DecidableEq, Repr

/-- What a factor completes. -/
def FactorRole.production : FactorRole → Production
  | .first => .term
  | .multiplier => .mul

/-- A place for an operand in an expression. -/
structure OperandSlot where
  /-- What the term around the operand is. -/
  term : TermRole := .first
  /-- What the operand is in that term. -/
  factor : FactorRole := .first
  deriving DecidableEq, Repr

/-- The statements that have a value. -/
inductive ValueStatement where
  /-- The value is assigned. -/
  | assignment
  /-- The value is returned. -/
  | ret
  deriving DecidableEq, Repr

/-- What the value completes. -/
def ValueStatement.production : ValueStatement → Production
  | .assignment => .assignment
  | .ret => .ret

/-- What is due next. The slots of an expression that is inside parentheses are those of the
surrounding expressions, from the inside out. -/
inductive Position where
  /-- A statement, or the end if there has been one. -/
  | statement
  /-- The name that a declaration declares. -/
  | declaredName
  /-- The sign behind the target of an assignment. -/
  | assignSign
  /-- An operand. -/
  | operand (goal : ValueStatement) (slot : OperandSlot) (outer : List OperandSlot)
  /-- An operator, or whatever ends the expression. -/
  | operator (goal : ValueStatement) (term : TermRole) (outer : List OperandSlot)
  /-- The semicolon of a declaration. -/
  | terminator
  deriving DecidableEq, Repr

/-- A position in a program. -/
structure Reading where
  /-- What is due next. -/
  position : Position
  /-- The number of statements read with their semicolons. -/
  complete : Nat
  deriving DecidableEq, Repr

/-- The beginning of a program. -/
def Reading.start : Reading where
  position := .statement
  complete := 0

/-! ## One token -/

/-- Where a token leads. -/
inductive Progress where
  /-- On to another position. -/
  | resume (r : Reading)
  /-- To the end of a program. -/
  | accepted
  /-- Nowhere: something else was due. -/
  | expected (what : String)
  deriving DecidableEq, Repr

/-- What a token brings about. -/
structure Step where
  /-- The events it settles, in order. -/
  events : List Event
  /-- Where it leads. -/
  progress : Progress
  deriving DecidableEq, Repr

/-- The events at the end of a program with a given number of statements. -/
def closingEvents (statements : Nat) : List Event :=
  .reduce .lastStatement :: List.replicate (statements - 1) (.reduce .statementList) ++
    [.reduce .program, .accept]

namespace Reading

/-- Go on to a position in the same statement. -/
def moveTo (r : Reading) (events : List Event) (position : Position) : Step where
  events := events
  progress := .resume { r with position }

/-- End a statement with its semicolon, behind the events that complete it. -/
def terminate (r : Reading) (events : List Event) : Token → Step
  | .semicolon =>
    { events := events ++ [.shift .semicolon]
      progress := .resume ⟨.statement, r.complete + 1⟩ }
  | _ => { events, progress := .expected "`;`" }

/-- A statement begins, or the program ends. -/
def beginStatement (r : Reading) (t : Token) : Step :=
  match t with
  | .keyword .int => r.moveTo [.shift t, .reduce .declarator] .declaredName
  | .keyword .ret => r.moveTo [.shift t] (.operand .ret {} [])
  | .ident _ => r.moveTo [.shift t] .assignSign
  | .eof =>
    if r.complete = 0 then { events := [], progress := .expected "a statement" }
    else { events := closingEvents r.complete, progress := .accepted }
  | _ => { events := [], progress := .expected "a statement" }

/-- An operand begins. -/
def beginOperand (r : Reading) (goal : ValueStatement) (slot : OperandSlot)
    (outer : List OperandSlot) (t : Token) : Step :=
  match t with
  | .openParen => r.moveTo [.shift t] (.operand goal {} (slot :: outer))
  | .ident _ =>
    r.moveTo [.shift t, .reduce .name, .reduce slot.factor.production]
      (.operator goal slot.term outer)
  | .literal _ =>
    r.moveTo [.shift t, .reduce .literal, .reduce slot.factor.production]
      (.operator goal slot.term outer)
  | _ => { events := [], progress := .expected "an expression" }

/-- An expression is complete: it is the inside of a parenthesis or the value of a statement. -/
def endExpression (r : Reading) (goal : ValueStatement) (term : TermRole)
    (outer : List OperandSlot) (t : Token) : Step :=
  match outer with
  | slot :: outer =>
    match t with
    | .closeParen =>
      r.moveTo
        [.reduce term.production, .shift t, .reduce .paren, .reduce slot.factor.production]
        (.operator goal slot.term outer)
    | _ => { events := [.reduce term.production], progress := .expected "`)`" }
  | [] => r.terminate [.reduce term.production, .reduce goal.production] t

/-- An expression goes on behind an operand, or is complete. -/
def continueExpression (r : Reading) (goal : ValueStatement) (term : TermRole)
    (outer : List OperandSlot) (t : Token) : Step :=
  match t with
  | .times => r.moveTo [.shift t] (.operand goal ⟨term, .multiplier⟩ outer)
  | .plus => r.moveTo [.reduce term.production, .shift t] (.operand goal ⟨.addend, .first⟩ outer)
  | .minus =>
    r.moveTo [.reduce term.production, .shift t] (.operand goal ⟨.subtrahend, .first⟩ outer)
  | _ => r.endExpression goal term outer t

/-- What a token brings about at a position. -/
def advance (r : Reading) (t : Token) : Step :=
  match r.position with
  | .statement => r.beginStatement t
  | .declaredName =>
    match t with
    | .ident _ => r.moveTo [.shift t, .reduce .declaration] .terminator
    | _ => { events := [], progress := .expected "an identifier" }
  | .assignSign =>
    match t with
    | .assign => r.moveTo [.shift t] (.operand .assignment {} [])
    | _ => { events := [], progress := .expected "`=`" }
  | .operand goal slot outer => r.beginOperand goal slot outer t
  | .operator goal term outer => r.continueExpression goal term outer t
  | .terminator => r.terminate [] t

end Reading

/-! ## Token lists -/

/-- Why a parse ends without success. -/
inductive ParseError (ε : Type) where
  /-- A token other than what was due. -/
  | unexpectedToken (expected : String) (found : Token)
  /-- The list ended before its end token. -/
  | unexpectedEnd
  /-- The observer refused an event. -/
  | action (error : ε)
  deriving DecidableEq, Repr

/-- The text of a parse error; a refusal speaks for itself. -/
def ParseError.message {ε : Type} (refusal : ε → String) : ParseError ε → String
  | .unexpectedToken expected found =>
    "Expected " ++ expected ++ ", found " ++ found.render ++ " instead"
  | .unexpectedEnd => "Token stream ended without an end-of-input marker"
  | .action error => refusal error

namespace Reading

variable {σ ε : Type}

/-- Read tokens from a position on, telling the observer every event. -/
def parseFrom (o : Observer σ ε) (r : Reading) : List Token → Action σ (ParseError ε) Unit
  | [] => .fail .unexpectedEnd
  | t :: ts => do
    let step := r.advance t
    (o.deliver step.events).mapError .action
    match step.progress with
    | .resume r' => r'.parseFrom o ts
    | .accepted => pure ()
    | .expected what => .fail (.unexpectedToken what t)

end Reading

/-- Recognise a program at the beginning of a token list, telling the observer every event until the
program is accepted, a token does not fit, or the observer refuses. -/
def parse {σ ε : Type} (o : Observer σ ε) (tokens : List Token) : Action σ (ParseError ε) Unit :=
  Reading.start.parseFrom o tokens

end StraightLine
