import StraightLine.Proofs.Reading

/-!
# The stack of a bottom-up parse

A bottom-up parse keeps a stack of grammar symbols. Shifting a token puts its kind on the stack, and
reducing a production takes the symbols of its body off and puts its head on. The parser has no such
stack: it tells events and remembers a position. But the position determines the stack that the
events so far have built, and this is `Reading.symbols`. Every event that the parser tells fits the
stack, also those that it tells at a token where it gives up.

Stacks are lists with the top first, so a body is on the stack in reverse.

## Main definitions

* `Event.Fits`, `Event.FitAll` — an event, and events in a row, fit a stack and lead to another
* `Reading.symbols` — the stack at a reading

## Main results

* `Reading.Move.fitAll`, `Reading.Reads.fitAll` — what is told on the way to a reading builds its
  stack
* `Reading.fitAll_eventsFrom` — everything that a parse tells fits the stack
-/

namespace StraightLine

/-! ## Events on a stack -/

/-- An event fits a stack of symbols and leads to another. -/
inductive Event.Fits : Event → List GrammarSymbol → List GrammarSymbol → Prop where
  /-- A token is put on. -/
  | shift (t : Token) (ss : List GrammarSymbol) : Fits (.shift t) ss (.terminal t.kind :: ss)
  /-- A body is taken off, and its head is put on. -/
  | reduce (p : Production) (ss : List GrammarSymbol) :
      Fits (.reduce p) (p.body.reverse ++ ss) (.nonterminal p.head :: ss)
  /-- A program is all there is. -/
  | accept : Fits .accept [.nonterminal .program] []

/-- Events in a row fit a stack of symbols and lead to another. -/
inductive Event.FitAll : List Event → List GrammarSymbol → List GrammarSymbol → Prop where
  | nil (ss : List GrammarSymbol) : FitAll [] ss ss
  | cons {e : Event} {es : List Event} {ss ss' ss'' : List GrammarSymbol} (first : e.Fits ss ss')
      (others : FitAll es ss' ss'') : FitAll (e :: es) ss ss''

namespace Event.FitAll

variable {e : Event} {es fs : List Event} {ss ss' ss'' : List GrammarSymbol}

theorem single (h : e.Fits ss ss') : FitAll [e] ss ss' :=
  .cons h (.nil _)

theorem append (h : FitAll es ss ss') (h' : FitAll fs ss' ss'') : FitAll (es ++ fs) ss ss'' := by
  induction h with
  | nil ss => exact h'
  | cons first _ ih => exact .cons first (ih h')

end Event.FitAll

open Event (Fits FitAll)

/-! ## The stack at a position -/

/-- The symbols in front of a term. -/
def TermRole.symbols : TermRole → List GrammarSymbol
  | .first => []
  | .addend => [.terminal .plus, .nonterminal .expression]
  | .subtrahend => [.terminal .minus, .nonterminal .expression]

/-- The symbols in front of a factor. -/
def FactorRole.symbols : FactorRole → List GrammarSymbol
  | .first => []
  | .multiplier => [.terminal .times, .nonterminal .term]

/-- The symbols in front of an operand. -/
def OperandSlot.symbols (slot : OperandSlot) : List GrammarSymbol :=
  slot.factor.symbols ++ slot.term.symbols

/-- The symbols in front of an expression inside parentheses. -/
def OperandSlot.nestedSymbols : List OperandSlot → List GrammarSymbol
  | [] => []
  | slot :: outer => .terminal .openParen :: slot.symbols ++ nestedSymbols outer

/-- The symbols in front of the value of a statement. -/
def ValueStatement.symbols : ValueStatement → List GrammarSymbol
  | .assignment => [.terminal .assign, .terminal .ident]
  | .ret => [.terminal (.keyword .ret)]

/-- The symbols of a statement in front of a position. -/
def Position.symbols : Position → List GrammarSymbol
  | .statement => []
  | .declaredName => [.nonterminal .declarator]
  | .assignSign => [.terminal .ident]
  | .operand goal slot outer =>
    slot.symbols ++ (OperandSlot.nestedSymbols outer ++ goal.symbols)
  | .operator goal term outer =>
    .nonterminal .term :: term.symbols ++ (OperandSlot.nestedSymbols outer ++ goal.symbols)
  | .terminator => [.nonterminal .statement]

/-- The symbols of complete statements. -/
def completeSymbols : Nat → List GrammarSymbol
  | 0 => []
  | n + 1 => .terminal .semicolon :: .nonterminal .statement :: completeSymbols n

/-- The stack at a reading. -/
def Reading.symbols (r : Reading) : List GrammarSymbol :=
  r.position.symbols ++ completeSymbols r.complete

/-! ## Reductions that depend on the position -/

/-- A factor completes a term. -/
theorem FactorRole.fits (role : FactorRole) (ss : List GrammarSymbol) :
    Fits (.reduce role.production) (.nonterminal .factor :: role.symbols ++ ss)
      (.nonterminal .term :: ss) := by
  cases role with
  | first => exact .reduce .term ss
  | multiplier => exact .reduce .mul ss

/-- A term completes an expression. -/
theorem TermRole.fits (role : TermRole) (ss : List GrammarSymbol) :
    Fits (.reduce role.production) (.nonterminal .term :: role.symbols ++ ss)
      (.nonterminal .expression :: ss) := by
  cases role with
  | first => exact .reduce .expression ss
  | addend => exact .reduce .add ss
  | subtrahend => exact .reduce .sub ss

/-- A value completes a statement. -/
theorem ValueStatement.fits (goal : ValueStatement) (ss : List GrammarSymbol) :
    Fits (.reduce goal.production) (.nonterminal .expression :: goal.symbols ++ ss)
      (.nonterminal .statement :: ss) := by
  cases goal with
  | assignment => exact .reduce .assignment ss
  | ret => exact .reduce .ret ss

/-- An operand has been read: the factor is on the stack, and its role is reduced. -/
theorem OperandSlot.fits (goal : ValueStatement) (slot : OperandSlot) (outer : List OperandSlot)
    (n : Nat) :
    Fits (.reduce slot.factor.production)
      (.nonterminal .factor :: Reading.symbols ⟨.operand goal slot outer, n⟩)
      (Reading.symbols ⟨.operator goal slot.term outer, n⟩) := by
  have h := slot.factor.fits (slot.term.symbols ++ (OperandSlot.nestedSymbols outer ++
    (goal.symbols ++ completeSymbols n)))
  simpa [Reading.symbols, Position.symbols, OperandSlot.symbols] using h

/-- An expression has been read: its last term is on the stack, and is reduced. -/
theorem TermRole.fits_operator (goal : ValueStatement) (term : TermRole)
    (outer : List OperandSlot) (n : Nat) :
    Fits (.reduce term.production) (Reading.symbols ⟨.operator goal term outer, n⟩)
      (.nonterminal .expression ::
        (OperandSlot.nestedSymbols outer ++ (goal.symbols ++ completeSymbols n))) := by
  have h := term.fits (OperandSlot.nestedSymbols outer ++ (goal.symbols ++ completeSymbols n))
  simpa [Reading.symbols, Position.symbols] using h

/-! ## Moves -/

namespace Reading

variable {r r' : Reading} {t : Token} {ts : List Token} {es : List Event}

theorem symbols_operand (goal : ValueStatement) (slot : OperandSlot) (outer : List OperandSlot)
    (n : Nat) : symbols ⟨.operand goal slot outer, n⟩ = slot.factor.symbols ++ (slot.term.symbols ++
      (OperandSlot.nestedSymbols outer ++ (goal.symbols ++ completeSymbols n))) := by
  simp [symbols, Position.symbols, OperandSlot.symbols]

/-- **A move builds the stack** of the reading it leads to. -/
theorem Move.fitAll (h : Move r t es r') : FitAll es r.symbols r'.symbols := by
  cases h with
  | declarator n => exact .cons (.shift _ _) (.single (.reduce .declarator _))
  | ret n => exact .single (.shift _ _)
  | target n x => exact .single (.shift _ _)
  | declaredName n x => exact .cons (.shift _ _) (.single (.reduce .declaration _))
  | assignSign n => exact .single (.shift _ _)
  | openParen n goal slot outer =>
    have hstack : symbols ⟨.operand goal {} (slot :: outer), n⟩ =
        .terminal .openParen :: symbols ⟨.operand goal slot outer, n⟩ := by
      simp [symbols_operand, FactorRole.symbols, TermRole.symbols, OperandSlot.nestedSymbols,
        OperandSlot.symbols]
    rw [hstack]
    exact .single (.shift _ _)
  | name n goal slot outer x =>
    exact .cons (.shift _ _) (.cons (.reduce .name _) (.single (slot.fits goal outer n)))
  | literal n goal slot outer text =>
    exact .cons (.shift _ _) (.cons (.reduce .literal _) (.single (slot.fits goal outer n)))
  | times n goal term outer =>
    have hstack : symbols ⟨.operand goal ⟨term, .multiplier⟩ outer, n⟩ =
        .terminal .times :: symbols ⟨.operator goal term outer, n⟩ := by
      simp [symbols, Position.symbols, OperandSlot.symbols, FactorRole.symbols]
    rw [hstack]
    exact .single (.shift _ _)
  | sign n goal term outer sign =>
    have hstack : symbols ⟨.operand goal ⟨sign.role, .first⟩ outer, n⟩ =
        .terminal sign.token.kind :: .nonterminal .expression ::
          (OperandSlot.nestedSymbols outer ++ (goal.symbols ++ completeSymbols n)) := by
      cases sign <;>
        simp [symbols_operand, FactorRole.symbols, TermRole.symbols, Sign.role, Sign.token,
          Token.kind]
    rw [hstack]
    exact .cons (term.fits_operator goal outer n) (.single (.shift _ _))
  | closeParen n goal term slot outer =>
    have hparen := term.fits_operator goal (slot :: outer) n
    have hstack : OperandSlot.nestedSymbols (slot :: outer) ++ (goal.symbols ++ completeSymbols n) =
        .terminal .openParen :: symbols ⟨.operand goal slot outer, n⟩ := by
      simp [symbols, Position.symbols, OperandSlot.nestedSymbols]
    rw [hstack] at hparen
    exact .cons hparen (.cons (.shift _ _)
      (.cons (.reduce .paren _) (.single (slot.fits goal outer n))))
  | value n goal term =>
    exact .cons (term.fits_operator goal [] n)
      (.cons (goal.fits (completeSymbols n)) (.single (.shift _ _)))
  | terminator n => exact .single (.shift _ _)

/-- The same for a stretch of tokens. -/
theorem Reads.fitAll (h : Reads r ts es r') : FitAll es r.symbols r'.symbols := by
  induction h with
  | refl r => exact .nil _
  | step first _ ih => exact first.fitAll.append ih

/-! ## Where a parse ends -/

/-- At the end token, the list of statements is reduced from its end, and nothing is left. -/
theorem fitAll_closingEvents (n : Nat) :
    FitAll (closingEvents (n + 1)) (symbols ⟨.statement, n + 1⟩) [] := by
  have hlist : ∀ n, FitAll (List.replicate n (.reduce .statementList))
      (.nonterminal .statements :: completeSymbols n) [.nonterminal .statements] := by
    intro n
    induction n with
    | zero => exact .nil _
    | succ n ih => exact .cons (.reduce .statementList (completeSymbols n)) ih
  rw [closingEvents, Nat.add_sub_cancel, List.cons_append]
  refine .cons (.reduce .lastStatement (completeSymbols n)) ((hlist n).append ?_)
  exact .cons (.reduce .program []) (.single .accept)

/-- At a token that does not fit, nothing is told, or that an expression is complete, and perhaps
the statement it is the value of. -/
theorem events_of_expected {what : String} (h : (r.advance t).progress = .expected what) :
    (r.advance t).events = [] ∨
      ∃ goal term outer, r.position = .operator goal term outer ∧
        ((r.advance t).events = [.reduce term.production] ∨
          outer = [] ∧
            (r.advance t).events = [.reduce term.production, .reduce goal.production]) := by
  obtain ⟨position, n⟩ := r
  cases position with
  | operator goal term outer =>
    cases t with
    | plus => cases h
    | minus => cases h
    | times => cases h
    | _ =>
      cases outer with
      | nil => exact .inr ⟨goal, term, [], rfl, .inr ⟨rfl, by cases h <;> rfl⟩⟩
      | cons slot outer => exact .inr ⟨goal, term, slot :: outer, rfl, .inl (by cases h <;> rfl)⟩
  | statement =>
    cases t with
    | keyword k => cases k <;> cases h
    | ident x => cases h
    | eof =>
      refine .inl ?_
      simp only [advance, beginStatement] at h ⊢
      split <;> simp_all
    | _ => exact .inl rfl
  | declaredName =>
    cases t with
    | ident x => cases h
    | _ => exact .inl rfl
  | assignSign =>
    cases t with
    | assign => cases h
    | _ => exact .inl rfl
  | operand goal slot outer =>
    cases t with
    | openParen => cases h
    | ident x => cases h
    | literal text => cases h
    | _ => exact .inl rfl
  | terminator =>
    cases t with
    | semicolon => cases h
    | _ => exact .inl rfl

/-- What is told at any token fits the stack. -/
theorem fitAll_advance (r : Reading) (t : Token) :
    ∃ ss, FitAll (r.advance t).events r.symbols ss ∧
      (∀ r', (r.advance t).progress = .resume r' → ss = r'.symbols) ∧
      ((r.advance t).progress = .accepted → ss = []) := by
  cases hprogress : (r.advance t).progress with
  | resume r' =>
    refine ⟨r'.symbols, (move_of_progress hprogress).fitAll, ?_, by simp⟩
    rintro r'' ⟨⟩
    rfl
  | accepted =>
    obtain ⟨rfl, hposition, hcomplete⟩ := advance_accepted_iff.mp hprogress
    obtain ⟨position, _ | n⟩ := r
    · exact absurd rfl hcomplete
    · obtain rfl : position = .statement := hposition
      refine ⟨[], ?_, by simp, fun _ => rfl⟩
      rw [advance_eof _ (Nat.succ_ne_zero n)]
      exact fitAll_closingEvents n
  | expected what =>
    rcases events_of_expected hprogress with hnone | ⟨goal, term, outer, hposition, hevents⟩
    · rw [hnone]
      exact ⟨r.symbols, .nil _, by simp, by simp⟩
    · obtain ⟨position, n⟩ := r
      obtain rfl : position = .operator goal term outer := hposition
      have hterm := term.fits_operator goal outer n
      rcases hevents with hevents | ⟨rfl, hevents⟩
      · rw [hevents]
        exact ⟨_, .single hterm, by simp, by simp⟩
      · rw [hevents]
        exact ⟨_, .cons hterm (.single (goal.fits (completeSymbols n))), by simp, by simp⟩

/-- **Everything that a parse tells fits the stack**, and where the parse succeeds, nothing is
left. -/
theorem fitAll_eventsFrom {ε : Type} (r : Reading) (ts : List Token) :
    ∃ ss, FitAll (r.eventsFrom ts) r.symbols ss ∧
      ((r.outcomeFrom ts : Except (ParseError ε) Unit) = .ok () → ss = []) := by
  induction ts generalizing r with
  | nil => exact ⟨r.symbols, .nil _, fun h => by cases h⟩
  | cons t ts ih =>
    obtain ⟨ss, hfit, hresume, haccepted⟩ := fitAll_advance r t
    rw [eventsFrom, outcomeFrom]
    cases hprogress : (r.advance t).progress with
    | resume r' =>
      obtain ⟨ss', hrest, hok⟩ := ih r'
      rw [hresume r' hprogress] at hfit
      exact ⟨ss', hfit.append hrest, hok⟩
    | accepted =>
      rw [haccepted hprogress] at hfit
      exact ⟨[], hfit.append (.nil _), fun _ => rfl⟩
    | expected what => exact ⟨ss, hfit.append (.nil _), fun h => by cases h⟩

end Reading

end StraightLine
