/-!
# Tokens

The words of the source language. Identifiers and integer literals carry the text they were spelled
with; every other token has one spelling. The end of the input is a token of its own, so that a
reader of tokens meets it like any other.

## Main definitions

* `Keyword`, `Token` — the words
* `Token.Kind` — a token without its text, which is all that the grammar looks at
* `Token.render` — the form in which messages and listings show a token
-/

namespace StraightLine

/-- The reserved words. -/
inductive Keyword where
  /-- Begins a declaration. -/
  | int
  /-- Begins a return statement. -/
  | ret
  deriving DecidableEq, Repr

namespace Keyword

/-- How a keyword is spelled. -/
def spelling : Keyword → String
  | int => "int"
  | ret => "return"

/-- The keyword with a given spelling; upper case does not match. -/
def ofString? (word : String) : Option Keyword :=
  if word = int.spelling then some int
  else if word = ret.spelling then some ret
  else none

end Keyword

/-- A word of the source language. -/
inductive Token where
  /-- A name. -/
  | ident (name : String)
  /-- An integer literal, as spelled. -/
  | literal (text : String)
  /-- A reserved word. -/
  | keyword (word : Keyword)
  /-- A single equals sign. -/
  | assign
  /-- Two equals signs. -/
  | equal
  /-- A plus sign. -/
  | plus
  /-- A minus sign. -/
  | minus
  /-- A single asterisk. -/
  | times
  /-- Two asterisks. -/
  | power
  /-- A slash. -/
  | slash
  /-- An opening parenthesis. -/
  | openParen
  /-- A closing parenthesis. -/
  | closeParen
  /-- A semicolon. -/
  | semicolon
  /-- The end of the input. -/
  | eof
  deriving DecidableEq, Repr

namespace Token

/-- What the grammar sees of a token. -/
inductive Kind where
  /-- Any name. -/
  | ident
  /-- Any integer literal. -/
  | literal
  /-- A reserved word. -/
  | keyword (word : Keyword)
  /-- A single equals sign. -/
  | assign
  /-- Two equals signs. -/
  | equal
  /-- A plus sign. -/
  | plus
  /-- A minus sign. -/
  | minus
  /-- A single asterisk. -/
  | times
  /-- Two asterisks. -/
  | power
  /-- A slash. -/
  | slash
  /-- An opening parenthesis. -/
  | openParen
  /-- A closing parenthesis. -/
  | closeParen
  /-- A semicolon. -/
  | semicolon
  /-- The end of the input. -/
  | eof
  deriving DecidableEq, Repr

/-- The kind of a token. -/
def kind : Token → Kind
  | ident _ => .ident
  | literal _ => .literal
  | keyword word => .keyword word
  | assign => .assign
  | equal => .equal
  | plus => .plus
  | minus => .minus
  | times => .times
  | power => .power
  | slash => .slash
  | openParen => .openParen
  | closeParen => .closeParen
  | semicolon => .semicolon
  | eof => .eof

/-- The text that a token carries beyond its kind. -/
def text? : Token → Option String
  | ident name => some name
  | literal text => some text
  | _ => none

/-- The name of a kind in listings. -/
def Kind.name : Kind → String
  | .ident => "id"
  | .literal => "IntConst"
  | .keyword word => word.spelling
  | .assign => "="
  | .equal => "=="
  | .plus => "+"
  | .minus => "-"
  | .times => "*"
  | .power => "**"
  | .slash => "/"
  | .openParen => "("
  | .closeParen => ")"
  | .semicolon => "Semicolon"
  | .eof => "eof"

/-- A token in a listing: its kind, and its text if it has one. -/
def render (t : Token) : String :=
  "(" ++ t.kind.name ++ "," ++ t.text?.getD "" ++ ")"

end Token

end StraightLine
