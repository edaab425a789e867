import StraightLine.Token.Lexer

/-!
# The automaton that finds tokens

The tokens of a text can be found by a finite automaton with one character of lookahead. Two tables
describe it. What it does next depends on its state and on the class of the next character, which
may be that there is none. In a final state a lexeme is complete, and the state and the text of the
lexeme say which token it is; a blank is a lexeme without a token.

Some final states are reached only by the character behind the lexeme. The automaton *retracts*
there: that character is left for the next lexeme.

## Main definitions

* `Automaton.Class` — what the automaton sees of the next character
* `Automaton.State` — the states, with the tables `Automaton.State.step`, `Automaton.State.token?`
* `Automaton.State.run` — a run from a state to the end of the lexeme
* `Lexer.scan` — one run from the beginning of what is left
* `Lexer.nextScanned` — one token at a time: runs up to the first that gives a token

## Implementation notes

`nextScanned` ends because a run from the start reads at least one character:
`Automaton.length_lt_of_run_start`.
-/

namespace StraightLine

namespace Automaton

/-- What the automaton sees of the next character. -/
inductive Class where
  /-- A letter. -/
  | letter
  /-- A decimal digit. -/
  | digit
  /-- A character that may stand between tokens. -/
  | blank
  /-- Any other character. -/
  | other (c : Char)
  /-- There is no next character. -/
  | ended
  deriving DecidableEq, Repr

/-- The class of a character. -/
def Class.of (c : Char) : Class :=
  if isLetter c then letter
  else if c.isDigit then digit
  else if isBlank c then blank
  else other c

/-- The states of the automaton. -/
inductive State where
  /-- No character of the lexeme has been read. -/
  | start
  /-- In a name or a keyword. -/
  | word
  /-- In an integer literal. -/
  | integer
  /-- Behind an asterisk, which another may follow. -/
  | star
  /-- Behind an equals sign, which another may follow. -/
  | equals
  /-- At the end of a name or a keyword. -/
  | wordEnd
  /-- At the end of an integer literal. -/
  | integerEnd
  /-- Behind two asterisks. -/
  | power
  /-- Behind a single asterisk. -/
  | times
  /-- Behind two equals signs. -/
  | equal
  /-- Behind a single equals sign. -/
  | assign
  /-- Behind an opening parenthesis. -/
  | openParen
  /-- Behind a closing parenthesis. -/
  | closeParen
  /-- Behind a semicolon. -/
  | semicolon
  /-- Behind a plus sign. -/
  | plus
  /-- Behind a minus sign. -/
  | minus
  /-- Behind a slash. -/
  | slash
  /-- Behind a blank. -/
  | blank
  deriving DecidableEq, Repr

namespace State

/-- Whether a lexeme is complete. -/
def isFinal : State → Bool
  | start | word | integer | star | equals => false
  | _ => true

/-- Whether the last character that was read is behind the lexeme. -/
def retracts : State → Bool
  | wordEnd | integerEnd | times | assign => true
  | _ => false

/-- The transitions from the start by a sign; no lexeme begins with any other. -/
def ofSign? : Char → Option State
  | '*' => some star
  | '=' => some equals
  | '(' => some openParen
  | ')' => some closeParen
  | ';' => some semicolon
  | '+' => some plus
  | '-' => some minus
  | '/' => some slash
  | _ => none

/-- The table of transitions. There is none where no lexeme can begin, and none from a final
state. -/
def step : State → Class → Option State
  | start, .other c => ofSign? c
  | start, .letter => some word
  | start, .digit => some integer
  | start, .blank => some blank
  | start, .ended => none
  | word, .letter | word, .digit => some word
  | word, _ => some wordEnd
  | integer, .digit => some integer
  | integer, _ => some integerEnd
  | star, .other c => some (if c = '*' then power else times)
  | star, _ => some times
  | equals, .other c => some (if c = '=' then equal else assign)
  | equals, _ => some assign
  | _, _ => none

/-- The table of tokens: what a lexeme is that was completed in a final state. -/
def token? (lexeme : String) : State → Option Token
  | wordEnd => some (Token.ofWord lexeme)
  | integerEnd => some (.literal lexeme)
  | power => some .power
  | times => some .times
  | equal => some .equal
  | assign => some .assign
  | openParen => some .openParen
  | closeParen => some .closeParen
  | semicolon => some .semicolon
  | plus => some .plus
  | minus => some .minus
  | slash => some .slash
  | blank | start | word | integer | star | equals => none

/-- No lexeme goes on behind the end of the text. -/
theorem isFinal_of_step_ended {q q' : State} (h : q.step .ended = some q') : q'.isFinal = true := by
  cases q <;> cases h <;> rfl

/-- Run to the end of the lexeme, of which `read` has been read: what the lexeme is, if it is a
token, and the text behind it. At the end of the text the lexeme ends: `isFinal_of_step_ended`. -/
def run (q : State) (read : List Char) : List Char → Except LexError (Option Token × List Char)
  | [] =>
    match q.step .ended with
    | none => .error .unexpectedEnd
    | some q' => .ok (q'.token? (String.ofList read), [])
  | c :: cs =>
    match q.step (.of c) with
    | none => .error (.badChar c)
    | some q' =>
      if q'.isFinal then
        if q'.retracts then .ok (q'.token? (String.ofList read), c :: cs)
        else .ok (q'.token? (String.ofList (read ++ [c])), cs)
      else q'.run (read ++ [c]) cs

end State

/-- A run does not leave more than there was. -/
theorem length_le_of_run {q : State} {read cs rest : List Char} {t : Option Token}
    (h : q.run read cs = .ok (t, rest)) : rest.length ≤ cs.length := by
  induction cs generalizing q read with
  | nil =>
    rw [State.run] at h
    split at h <;> cases h
    exact Nat.le_refl 0
  | cons c cs ih =>
    rw [State.run] at h
    split at h
    · cases h
    · split at h
      · split at h <;> cases h
        · exact Nat.le_refl _
        · exact Nat.le_succ _
      · exact Nat.le_succ_of_le (ih h)

/-- The character that leads away from the start belongs to the lexeme, so no lexeme is empty. -/
theorem retracts_of_ofSign? {c : Char} {q : State} (h : State.ofSign? c = some q) :
    q.retracts = false := by
  unfold State.ofSign? at h
  split at h <;> cases h <;> rfl

theorem retracts_of_step_start {k : Class} {q : State} (h : State.start.step k = some q) :
    q.retracts = false := by
  cases k with
  | other c => exact retracts_of_ofSign? h
  | letter | digit | blank =>
    cases h
    rfl
  | ended => cases h

/-- A run from the start reads at least one character. -/
theorem length_lt_of_run_start {cs rest : List Char} {t : Option Token}
    (h : State.start.run [] cs = .ok (t, rest)) : rest.length < cs.length := by
  cases cs with
  | nil => cases h
  | cons c cs =>
    rw [State.run] at h
    split at h
    · cases h
    · next q hstep =>
      rw [retracts_of_step_start hstep] at h
      split at h
      · cases h
        exact Nat.lt_succ_self _
      · exact Nat.lt_succ_of_le (length_le_of_run h)

end Automaton

namespace Lexer

/-- Run the automaton once. A name is entered in the table; where no lexeme begins, the lexer stays
where it is. -/
def scan (l : Lexer) : Except LexError (Option Token) × Lexer :=
  match Automaton.State.start.run [] l.rest with
  | .error e => (.error e, l)
  | .ok (t, rest) => (.ok t, { l with rest, symbols := t.elim l.symbols l.symbols.addToken })

theorem length_lt_of_scan {l l' : Lexer} {t : Option Token} (h : l.scan = (.ok t, l')) :
    l'.rest.length < l.rest.length := by
  unfold scan at h
  split at h
  · cases h
  · next hrun =>
    cases h
    exact Automaton.length_lt_of_run_start hrun

/-- The next token or the error that stands in its place, if the lexer has not ended: the first
lexeme that is a token. -/
def nextScanned (l : Lexer) : Option (Except LexError Token) × Lexer :=
  if l.finished then (none, l)
  else if l.rest = [] then (some (.ok .eof), { l with finished := true })
  else
    match _h : l.scan with
    | (.ok none, l') => l'.nextScanned
    | (.ok (some t), l') => (some (.ok t), l')
    | (.error e, l') => (some (.error e), { l' with finished := true })
termination_by l.rest.length
decreasing_by exact length_lt_of_scan _h

end Lexer

end StraightLine
