import StraightLine.SymbolTable
import StraightLine.Text.Alphabetic
import StraightLine.Text.Quoted
import StraightLine.Token

/-!
# From text to tokens

A lexer holds the text that is left and a symbol table. Each call of `Lexer.next` passes over blanks
and takes the longest token that begins there; a name is entered in the table when it is read. The
end of the text gives the end token once. After that, and after an error, there is nothing more.

## Main definitions

* `LexError` — why a text has no further token
* `lexeme` — the token at the beginning of a text, with what is left behind it
* `Lexer`, `Lexer.next` — one token at a time
* `Lexer.drain` — all that the calls of `next` give
* `Scan` — what a lexer made of a whole text
* `tokenize` — the tokens of a text, or the first error, with the table that results

## Implementation notes

`drain` ends because a call of `next` that gives something either ends the lexer or leaves a shorter
text: this is `Lexer.budget_next_lt`.
-/

namespace StraightLine

/-- Why a text has no further token. -/
inductive LexError where
  /-- A character that begins no token. -/
  | badChar (c : Char)
  /-- The text ended where a token had to begin. -/
  | unexpectedEnd
  deriving DecidableEq, Repr

/-- The text of a lexical error. -/
def LexError.message : LexError → String
  | .badChar c => "Bad character " ++ quotedChar c ++ " in input stream"
  | .unexpectedEnd => "Unexpected end of input"

/-! ## Classes of characters -/

/-- The characters that may stand between tokens. -/
def isBlank (c : Char) : Bool :=
  c == ' ' || c == '\n' || c == '\t' || c == '\r'

/-- The characters that continue a word. -/
def isWordChar (c : Char) : Bool :=
  isLetter c || c.isDigit

/-! ## One token -/

/-- The token of a word: a keyword if it is spelled like one, else a name. -/
def Token.ofWord (word : String) : Token :=
  match Keyword.ofString? word with
  | some k => .keyword k
  | none => .ident word

/-- The longest token that begins with `c` and continues in `cs`, and the text behind it. -/
def lexeme (c : Char) (cs : List Char) : Except LexError (Token × List Char) :=
  if isLetter c then
    .ok (Token.ofWord (String.ofList (c :: cs.takeWhile isWordChar)), cs.dropWhile isWordChar)
  else if c.isDigit then
    .ok (.literal (String.ofList (c :: cs.takeWhile Char.isDigit)), cs.dropWhile Char.isDigit)
  else
    match c, cs with
    | '*', '*' :: cs => .ok (.power, cs)
    | '*', cs => .ok (.times, cs)
    | '=', '=' :: cs => .ok (.equal, cs)
    | '=', cs => .ok (.assign, cs)
    | '(', cs => .ok (.openParen, cs)
    | ')', cs => .ok (.closeParen, cs)
    | ';', cs => .ok (.semicolon, cs)
    | '+', cs => .ok (.plus, cs)
    | '-', cs => .ok (.minus, cs)
    | '/', cs => .ok (.slash, cs)
    | c, _ => .error (.badChar c)

/-- Dropping from the front leaves no more than there was. -/
theorem length_dropWhile_le (p : Char → Bool) (cs : List Char) :
    (cs.dropWhile p).length ≤ cs.length :=
  (List.dropWhile_suffix p).length_le

/-- What is left behind a token is no longer than what followed its first character. -/
theorem length_le_of_lexeme {c : Char} {cs rest : List Char} {t : Token}
    (h : lexeme c cs = .ok (t, rest)) : rest.length ≤ cs.length := by
  unfold lexeme at h
  split at h
  · cases h
    exact length_dropWhile_le ..
  · split at h
    · cases h
      exact length_dropWhile_le ..
    · split at h <;> cases h <;> simp

/-! ## The lexer -/

/-- A lexer at work. -/
structure Lexer where
  /-- The text that is left. -/
  rest : List Char
  /-- The names met so far, and those that were there before. -/
  symbols : SymbolTable
  /-- Whether the end token or an error has been given. -/
  finished : Bool := false

/-- Enter the name that a token carries. -/
def SymbolTable.addToken (s : SymbolTable) : Token → SymbolTable
  | .ident name => s.add name
  | _ => s

namespace Lexer

/-- A lexer at the beginning of a text. -/
def ofString (source : String) (symbols : SymbolTable) : Lexer where
  rest := source.toList
  symbols := symbols

/-- The next token or the error that stands in its place, if the lexer has not ended. -/
def next (l : Lexer) : Option (Except LexError Token) × Lexer :=
  if l.finished then (none, l)
  else
    match l.rest.dropWhile isBlank with
    | [] => (some (.ok .eof), { l with rest := [], finished := true })
    | c :: cs =>
      match lexeme c cs with
      | .error e => (some (.error e), { l with rest := c :: cs, finished := true })
      | .ok (t, rest) => (some (.ok t), { l with rest, symbols := l.symbols.addToken t })

/-- A bound on the number of calls of `next` that still give something. -/
def budget (l : Lexer) : Nat :=
  if l.finished then 0 else l.rest.length + 1

/-- A call of `next` that gives something uses up part of the budget. -/
theorem budget_next_lt {l l' : Lexer} {r : Except LexError Token}
    (h : l.next = (some r, l')) : l'.budget < l.budget := by
  unfold next at h
  split at h
  · cases h
  · next hf =>
    have hb : l.budget = l.rest.length + 1 := by simp [budget, hf]
    split at h
    · cases h
      simp [budget, hf]
    · next c cs hd =>
      have hle := length_dropWhile_le isBlank l.rest
      rw [hd, List.length_cons] at hle
      split at h
      · cases h
        simp [budget, hf]
      · next t rest ht =>
        cases h
        have := length_le_of_lexeme ht
        simp only [budget, hf, Bool.false_eq_true, if_false]
        omega

/-- All that the calls of `next` give until there is nothing more, and the lexer then. -/
def drain (l : Lexer) : List (Except LexError Token) × Lexer :=
  match _h : l.next with
  | (none, l') => ([], l')
  | (some r, l') =>
    let (rs, last) := drain l'
    (r :: rs, last)
termination_by l.budget
decreasing_by exact budget_next_lt _h

end Lexer

/-- What a lexer made of a whole text. -/
structure Scan where
  /-- All that the calls of `Lexer.next` gave, in order. -/
  results : List (Except LexError Token)
  /-- The table at the end. -/
  symbols : SymbolTable

namespace Scan

/-- Read a whole text. -/
def ofString (source : String) (symbols : SymbolTable) : Scan :=
  let (results, last) := (Lexer.ofString source symbols).drain
  ⟨results, last.symbols⟩

/-- The tokens, up to and with the end token, or the first error. -/
def tokens (s : Scan) : Except LexError (List Token) :=
  s.results.mapM id

end Scan

/-- The tokens of a text, up to and with the end token, or the first error. The table has every name
read on the way, also when there is an error. -/
def tokenize (source : String) (symbols : SymbolTable) :
    Except LexError (List Token) × SymbolTable :=
  let scan := Scan.ofString source symbols
  (scan.tokens, scan.symbols)

end StraightLine
