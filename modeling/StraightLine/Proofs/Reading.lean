import StraightLine.Proofs.Action
import StraightLine.Proofs.Syntax

/-!
# Reading a program from left to right

What the parser does with a token list does not depend on who watches: the list determines the
events and the outcome, and an observer is told these events. So parsing is studied without
observers, on `Reading.eventsFrom` and `Reading.outcomeFrom`.

Every way in which a token can lead on is a constructor of `Reading.Move`, and a stretch of tokens
that leads from one reading to another is a chain of moves, `Reading.Reads`. Towards completeness,
the tokens of every syntax tree are such a chain. Towards soundness, `Reading.Consumed` says what
the tokens in front of a reading can be: complete statements and the front part of one more. It
holds at the start, every move keeps it, and where the program may end, no front part is left.

## Main definitions

* `Reading.Move`, `Reading.Reads` — what one token and what several tokens lead to
* `Reading.eventsFrom`, `Reading.outcomeFrom` — a parse that nobody watches
* `Reading.Consumed` — what has been read in front of a reading

## Main results

* `Reading.run_parseFrom` — a watched parse is the delivery of the events of an unwatched one
* `Program.reads` — the tokens of a program lead to the end of its last statement
* `Reading.Consumed.move` — the step of soundness
* `parse_accepts_derivations` — exactly the yields of derivations are accepted, with their events
-/

namespace StraightLine

namespace Reading

/-! ## Moves -/

/-- The token `t` leads from one reading to another and settles the events in between. -/
inductive Move : Reading → Token → List Event → Reading → Prop where
  | declarator (n : Nat) :
      Move ⟨.statement, n⟩ (.keyword .int) [.shift (.keyword .int), .reduce .declarator]
        ⟨.declaredName, n⟩
  | ret (n : Nat) :
      Move ⟨.statement, n⟩ (.keyword .ret) [.shift (.keyword .ret)] ⟨.operand .ret {} [], n⟩
  | target (n : Nat) (x : String) :
      Move ⟨.statement, n⟩ (.ident x) [.shift (.ident x)] ⟨.assignSign, n⟩
  | declaredName (n : Nat) (x : String) :
      Move ⟨.declaredName, n⟩ (.ident x) [.shift (.ident x), .reduce .declaration]
        ⟨.terminator, n⟩
  | assignSign (n : Nat) :
      Move ⟨.assignSign, n⟩ .assign [.shift .assign] ⟨.operand .assignment {} [], n⟩
  | openParen (n : Nat) (goal : ValueStatement) (slot : OperandSlot) (outer : List OperandSlot) :
      Move ⟨.operand goal slot outer, n⟩ .openParen [.shift .openParen]
        ⟨.operand goal {} (slot :: outer), n⟩
  | name (n : Nat) (goal : ValueStatement) (slot : OperandSlot) (outer : List OperandSlot)
      (x : String) :
      Move ⟨.operand goal slot outer, n⟩ (.ident x)
        [.shift (.ident x), .reduce .name, .reduce slot.factor.production]
        ⟨.operator goal slot.term outer, n⟩
  | literal (n : Nat) (goal : ValueStatement) (slot : OperandSlot) (outer : List OperandSlot)
      (text : String) :
      Move ⟨.operand goal slot outer, n⟩ (.literal text)
        [.shift (.literal text), .reduce .literal, .reduce slot.factor.production]
        ⟨.operator goal slot.term outer, n⟩
  | times (n : Nat) (goal : ValueStatement) (term : TermRole) (outer : List OperandSlot) :
      Move ⟨.operator goal term outer, n⟩ .times [.shift .times]
        ⟨.operand goal ⟨term, .multiplier⟩ outer, n⟩
  | sign (n : Nat) (goal : ValueStatement) (term : TermRole) (outer : List OperandSlot)
      (sign : Sign) :
      Move ⟨.operator goal term outer, n⟩ sign.token [.reduce term.production, .shift sign.token]
        ⟨.operand goal ⟨sign.role, .first⟩ outer, n⟩
  | closeParen (n : Nat) (goal : ValueStatement) (term : TermRole) (slot : OperandSlot)
      (outer : List OperandSlot) :
      Move ⟨.operator goal term (slot :: outer), n⟩ .closeParen
        [.reduce term.production, .shift .closeParen, .reduce .paren,
          .reduce slot.factor.production]
        ⟨.operator goal slot.term outer, n⟩
  | value (n : Nat) (goal : ValueStatement) (term : TermRole) :
      Move ⟨.operator goal term [], n⟩ .semicolon
        [.reduce term.production, .reduce goal.production, .shift .semicolon]
        ⟨.statement, n + 1⟩
  | terminator (n : Nat) :
      Move ⟨.terminator, n⟩ .semicolon [.shift .semicolon] ⟨.statement, n + 1⟩

variable {r r' r'' : Reading} {t : Token} {ts us : List Token} {es fs : List Event}

theorem Move.advance_eq (h : Move r t es r') : r.advance t = ⟨es, .resume r'⟩ := by
  cases h with
  | sign n goal term outer sign => cases sign <;> rfl
  | _ => rfl

/-- A token leads on by a move and in no other way. -/
theorem move_of_progress (h : (r.advance t).progress = .resume r') :
    Move r t (r.advance t).events r' := by
  obtain ⟨position, n⟩ := r
  cases position with
  | statement =>
    cases t with
    | keyword k => cases k <;> cases h <;> constructor
    | ident x => cases h; constructor
    | eof =>
      have hno : ∀ r', (beginStatement ⟨.statement, n⟩ .eof).progress ≠ .resume r' := by
        intro r'
        rw [beginStatement]
        split <;> simp
      exact absurd h (hno r')
    | _ => cases h
  | declaredName =>
    cases t <;> cases h
    constructor
  | assignSign =>
    cases t <;> cases h
    constructor
  | operand goal slot outer => cases t <;> cases h <;> constructor
  | operator goal term outer =>
    cases t with
    | plus => cases h; exact Move.sign n goal term outer .plus
    | minus => cases h; exact Move.sign n goal term outer .minus
    | _ => cases outer <;> cases h <;> constructor
  | terminator =>
    cases t <;> cases h
    constructor

/-- Only the end token ends a program, and only behind a statement. -/
theorem advance_accepted_iff :
    (r.advance t).progress = .accepted ↔ t = .eof ∧ r.position = .statement ∧ r.complete ≠ 0 := by
  obtain ⟨position, n⟩ := r
  cases position with
  | statement =>
    cases t with
    | keyword k => cases k <;> simp [advance, beginStatement, moveTo]
    | eof =>
      simp only [advance, beginStatement]
      split <;> simp_all
    | _ => simp [advance, beginStatement, moveTo]
  | operator goal term outer =>
    cases t <;> cases outer <;>
      simp [advance, continueExpression, endExpression, terminate, moveTo]
  | _ => cases t <;> simp [advance, beginOperand, terminate, moveTo]

/-- Tokens lead from one reading to another, move by move, and settle the events in between. -/
inductive Reads : Reading → List Token → List Event → Reading → Prop where
  | refl (r : Reading) : Reads r [] [] r
  | step {r r' r'' : Reading} {t : Token} {ts : List Token} {es fs : List Event}
      (first : Move r t es r') (others : Reads r' ts fs r'') : Reads r (t :: ts) (es ++ fs) r''

namespace Reads

theorem single (h : Move r t es r') : Reads r [t] es r' := by
  have hread := step h (refl r')
  rwa [List.append_nil] at hread

theorem trans (h : Reads r ts es r') (h' : Reads r' us fs r'') :
    Reads r (ts ++ us) (es ++ fs) r'' := by
  induction h with
  | refl r => exact h'
  | step first _ ih =>
    rw [List.cons_append, List.append_assoc]
    exact step first (ih h')

end Reads

/-! ## A parse that nobody watches -/

/-- The events of a token list, read from a position on. -/
def eventsFrom (r : Reading) : List Token → List Event
  | [] => []
  | t :: ts =>
    (r.advance t).events ++
      match (r.advance t).progress with
      | .resume r' => r'.eventsFrom ts
      | _ => []

/-- How reading a token list from a position on ends. -/
def outcomeFrom {ε : Type} (r : Reading) : List Token → Except (ParseError ε) Unit
  | [] => .error .unexpectedEnd
  | t :: ts =>
    match (r.advance t).progress with
    | .resume r' => r'.outcomeFrom ts
    | .accepted => .ok ()
    | .expected what => .error (.unexpectedToken what t)

/-- **Watching changes nothing.** The observer is told the events of the unwatched parse, and unless
it refuses one, the outcome is that of the unwatched parse. -/
theorem run_parseFrom {σ ε : Type} (o : Observer σ ε) (r : Reading) (ts : List Token) (s : σ) :
    (r.parseFrom o ts).run s =
      match (o.deliver (r.eventsFrom ts)).run s with
      | (.ok _, s') => (r.outcomeFrom ts, s')
      | (.error e, s') => (.error (.action e), s') := by
  induction ts generalizing r s with
  | nil => rfl
  | cons t ts ih =>
    rw [parseFrom, eventsFrom, Observer.run_deliver_append]
    rcases h : (o.deliver (r.advance t).events).run s with ⟨err | ⟨⟩, s'⟩
    · -- the observer refuses an event of the first token
      have hmap : ((o.deliver (r.advance t).events).mapError ParseError.action).run s =
          (.error (.action err), s') := by
        rw [Action.run_mapError, h]
        rfl
      rw [Action.run_bind_of_error h, Action.run_bind_of_error hmap]
    · have hmap : ((o.deliver (r.advance t).events).mapError ParseError.action).run s =
          (.ok (), s') := Action.run_mapError_eq_ok.mpr h
      rw [Action.run_bind_of_ok h, Action.run_bind_of_ok hmap, outcomeFrom]
      cases (r.advance t).progress with
      | resume r' => exact ih r' s'
      | accepted => rfl
      | expected what => rfl

/-- How a parse leaves its observer is a matter of the events alone. -/
theorem snd_run_parseFrom {σ ε : Type} (o : Observer σ ε) (r : Reading) (ts : List Token) (s : σ) :
    ((r.parseFrom o ts).run s).2 = ((o.deliver (r.eventsFrom ts)).run s).2 := by
  rw [run_parseFrom]
  rcases (o.deliver (r.eventsFrom ts)).run s with ⟨err | ⟨⟩, s'⟩ <;> rfl

/-- A watched parse succeeds exactly when nothing is refused and the unwatched parse succeeds. -/
theorem run_parseFrom_eq_ok {σ ε : Type} {o : Observer σ ε} {s s' : σ} :
    (r.parseFrom o ts).run s = (.ok (), s') ↔
      (o.deliver (r.eventsFrom ts)).run s = (.ok (), s') ∧
        (r.outcomeFrom ts : Except (ParseError ε) Unit) = .ok () := by
  rw [run_parseFrom]
  rcases (o.deliver (r.eventsFrom ts)).run s with ⟨err | ⟨⟩, s''⟩
  · simp
  · simp only [Prod.mk.injEq, true_and]
    exact and_comm

namespace Reads

/-- The events of a stretch that has been read come before those of the rest. -/
theorem eventsFrom_append (h : Reads r ts es r') (rest : List Token) :
    r.eventsFrom (ts ++ rest) = es ++ r'.eventsFrom rest := by
  induction h with
  | refl r => rfl
  | step first _ ih =>
    rw [List.cons_append, eventsFrom, first.advance_eq, List.append_assoc, ← ih]

/-- The outcome is decided behind a stretch that has been read. -/
theorem outcomeFrom_append {ε : Type} (h : Reads r ts es r') (rest : List Token) :
    (r.outcomeFrom (ts ++ rest) : Except (ParseError ε) Unit) = r'.outcomeFrom rest := by
  induction h with
  | refl r => rfl
  | step first _ ih =>
    rw [List.cons_append, outcomeFrom, first.advance_eq, ← ih]

end Reads

end Reading

/-! ## Completeness

An expression is reduced together with the token behind it, so what its tokens settle is all of its
events but the last. -/

/-- What the last term of an expression is to it. -/
def Expression.lastRole : Expression → TermRole
  | .single _ => .first
  | .more _ sign _ => sign.role

/-- The events of an expression without its own reduction. -/
def Expression.settled : Expression → List Event
  | .single t => t.events
  | .more e sign t => e.events ++ .shift sign.token :: t.events

theorem Expression.events_eq_settled (e : Expression) :
    e.events = e.settled ++ [.reduce e.lastRole.production] := by
  cases e <;> rfl

open Reading (Move Reads)

variable (goal : ValueStatement) (outer : List OperandSlot) (n : Nat)

mutual

theorem Expression.reads (outer : List OperandSlot) (e : Expression) :
    Reads ⟨.operand goal {} outer, n⟩ e.tokens e.settled ⟨.operator goal e.lastRole outer, n⟩ := by
  match e with
  | .single t => exact t.reads outer .first
  | .more e sign t =>
    have hsign : Reads _ [sign.token] _ _ := .single (.sign n goal e.lastRole outer sign)
    have hread := (e.reads outer).trans (hsign.trans (t.reads outer sign.role))
    rw [Expression.tokens, Expression.settled, e.events_eq_settled]
    simpa [Expression.lastRole] using hread

theorem Term.reads (outer : List OperandSlot) (role : TermRole) (t : Term) :
    Reads ⟨.operand goal ⟨role, .first⟩ outer, n⟩ t.tokens t.events
      ⟨.operator goal role outer, n⟩ := by
  match t with
  | .single f => exact f.reads outer ⟨role, .first⟩
  | .times t f =>
    have htimes : Reads _ [.times] _ _ := .single (.times n goal role outer)
    have hread := (t.reads outer role).trans (htimes.trans (f.reads outer ⟨role, .multiplier⟩))
    rw [Term.tokens, Term.events]
    simpa [FactorRole.production] using hread

theorem Factor.reads (outer : List OperandSlot) (slot : OperandSlot) (f : Factor) :
    Reads ⟨.operand goal slot outer, n⟩ f.tokens (f.events ++ [.reduce slot.factor.production])
      ⟨.operator goal slot.term outer, n⟩ := by
  match f with
  | .paren e =>
    have hopen : Reads _ [.openParen] _ _ := .single (.openParen n goal slot outer)
    have hclose : Reads _ [.closeParen] _ _ := .single (.closeParen n goal e.lastRole slot outer)
    have hread := hopen.trans ((e.reads (slot :: outer)).trans hclose)
    rw [Factor.tokens, Factor.events, e.events_eq_settled]
    simpa using hread
  | .name x => exact .single (.name n goal slot outer x)
  | .literal text => exact .single (.literal n goal slot outer text)

end

/-- The value of a statement is read up to the semicolon. -/
theorem Expression.reads_value (e : Expression) :
    Reads ⟨.operand goal {} [], n⟩ (e.tokens ++ [.semicolon])
      (e.events ++ [.reduce goal.production, .shift .semicolon]) ⟨.statement, n + 1⟩ := by
  have hread := (e.reads goal n []).trans (.single (.value n goal e.lastRole))
  rw [e.events_eq_settled]
  simpa using hread

theorem Statement.reads (s : Statement) :
    Reads ⟨.statement, n⟩ (s.tokens ++ [.semicolon]) (s.events ++ [.shift .semicolon])
      ⟨.statement, n + 1⟩ := by
  cases s with
  | declare x =>
    have hread := Reads.step (.declarator n)
      (.step (.declaredName n x) (.single (.terminator n)))
    exact hread
  | assign x e =>
    have hread := Reads.step (.target n x) (.step (.assignSign n) (e.reads_value .assignment n))
    simpa [Statement.tokens, Statement.events, ValueStatement.production] using hread
  | ret e =>
    have hread := Reads.step (.ret n) (e.reads_value .ret n)
    simpa [Statement.tokens, Statement.events, ValueStatement.production] using hread

theorem Statement.reads_list (ss : List Statement) :
    Reads ⟨.statement, n⟩ (listTokens ss) (listEvents ss) ⟨.statement, n + ss.length⟩ := by
  induction ss generalizing n with
  | nil => exact .refl _
  | cons s ss ih =>
    have hread := (s.reads n).trans (ih (n + 1))
    rw [Nat.add_assoc, Nat.add_comm 1] at hread
    simpa [listTokens, listEvents] using hread

/-- The tokens of a program lead to the end of its last statement. -/
theorem Program.reads (p : Program) :
    Reads Reading.start p.tokens (Statement.listEvents p.statements)
      ⟨.statement, p.statements.length⟩ := by
  have hread := Statement.reads_list 0 p.statements
  rwa [Nat.zero_add] at hread

/-- Behind a statement, the end token closes the program. -/
theorem Reading.advance_eof (hn : n ≠ 0) :
    (⟨.statement, n⟩ : Reading).advance .eof = ⟨closingEvents n, .accepted⟩ :=
  if_neg hn

/-- What is left to settle at the end token are the reductions of the list and the acceptance. -/
theorem Program.events_accept (p : Program) :
    p.events ++ [.accept] =
      Statement.listEvents p.statements ++ closingEvents p.statements.length := by
  simp [closingEvents, Program.events]

theorem Program.length_ne_zero (p : Program) : p.statements.length ≠ 0 := fun h =>
  p.nonempty (List.length_eq_zero_iff.mp h)

/-- The events of a program, read up to the end token. -/
theorem Program.eventsFrom_tokens (p : Program) (rest : List Token) :
    Reading.start.eventsFrom (p.tokens ++ .eof :: rest) = p.events ++ [.accept] := by
  rw [p.reads.eventsFrom_append, Reading.eventsFrom, Reading.advance_eof _ p.length_ne_zero,
    p.events_accept, List.append_nil]

theorem Program.outcomeFrom_tokens {ε : Type} (p : Program) (rest : List Token) :
    (Reading.start.outcomeFrom (p.tokens ++ .eof :: rest) : Except (ParseError ε) Unit) =
      .ok () := by
  rw [p.reads.outcomeFrom_append, Reading.outcomeFrom, Reading.advance_eof _ p.length_ne_zero]

/-! ## Soundness -/

/-- The tokens of an expression in front of one of its terms. -/
def TermRole.Opens : TermRole → List Token → Prop
  | .first, ts => ts = []
  | .addend, ts => ∃ e : Expression, ts = e.tokens ++ [.plus]
  | .subtrahend, ts => ∃ e : Expression, ts = e.tokens ++ [.minus]

/-- The tokens of a term in front of one of its factors. -/
def FactorRole.Opens : FactorRole → List Token → Prop
  | .first, ts => ts = []
  | .multiplier, ts => ∃ t : Term, ts = t.tokens ++ [.times]

/-- The tokens of an expression in front of one of its operands. -/
def OperandSlot.Opens (slot : OperandSlot) (ts : List Token) : Prop :=
  ∃ us vs, slot.term.Opens us ∧ slot.factor.Opens vs ∧ ts = us ++ vs

/-- The tokens in front of an expression that is inside parentheses, given the slots of the
surrounding expressions from the inside out. -/
def OperandSlot.Nested : List OperandSlot → List Token → Prop
  | [], ts => ts = []
  | slot :: outer, ts => ∃ us vs, Nested outer us ∧ slot.Opens vs ∧ ts = us ++ vs ++ [.openParen]

/-- The tokens of a statement in front of its value. -/
def ValueStatement.Opens : ValueStatement → List Token → Prop
  | .assignment, ts => ∃ x, ts = [.ident x, .assign]
  | .ret, ts => ts = [.keyword .ret]

/-- The tokens of a statement in front of a position. -/
def Position.Opens : Position → List Token → Prop
  | .statement, ts => ts = []
  | .declaredName, ts => ts = [.keyword .int]
  | .assignSign, ts => ∃ x, ts = [.ident x]
  | .operand goal slot outer, ts =>
    ∃ us vs ws, goal.Opens us ∧ OperandSlot.Nested outer vs ∧ slot.Opens ws ∧
      ts = us ++ vs ++ ws
  | .operator goal term outer, ts =>
    ∃ us vs ws, ∃ t : Term, goal.Opens us ∧ OperandSlot.Nested outer vs ∧ term.Opens ws ∧
      ts = us ++ vs ++ ws ++ t.tokens
  | .terminator, ts => ∃ x, ts = [.keyword .int, .ident x]

/-- What has been read in front of a reading: complete statements, and the front of one more. -/
def Reading.Consumed (r : Reading) (ts : List Token) : Prop :=
  ∃ (ss : List Statement) (us : List Token),
    ss.length = r.complete ∧ r.position.Opens us ∧ ts = Statement.listTokens ss ++ us

/-- A factor completes a term. -/
theorem FactorRole.Opens.exists_term {role : FactorRole} {ts : List Token} (h : role.Opens ts)
    (f : Factor) : ∃ t : Term, t.tokens = ts ++ f.tokens := by
  cases role with
  | first =>
    obtain rfl := h
    exact ⟨.single f, rfl⟩
  | multiplier =>
    obtain ⟨t, rfl⟩ := h
    exact ⟨.times t f, by simp [Term.tokens]⟩

/-- A term completes an expression. -/
theorem TermRole.Opens.exists_expression {role : TermRole} {ts : List Token} (h : role.Opens ts)
    (t : Term) : ∃ e : Expression, e.tokens = ts ++ t.tokens := by
  cases role with
  | first =>
    obtain rfl := h
    exact ⟨.single t, rfl⟩
  | addend =>
    obtain ⟨e, rfl⟩ := h
    exact ⟨.more e .plus t, by simp [Expression.tokens, Sign.token]⟩
  | subtrahend =>
    obtain ⟨e, rfl⟩ := h
    exact ⟨.more e .minus t, by simp [Expression.tokens, Sign.token]⟩

/-- A value completes a statement. -/
theorem ValueStatement.Opens.exists_statement {goal : ValueStatement} {ts : List Token}
    (h : goal.Opens ts) (e : Expression) : ∃ s : Statement, s.tokens = ts ++ e.tokens := by
  cases goal with
  | assignment =>
    obtain ⟨x, rfl⟩ := h
    exact ⟨.assign x e, rfl⟩
  | ret =>
    obtain rfl := h
    exact ⟨.ret e, rfl⟩

theorem OperandSlot.opens_default : ({} : OperandSlot).Opens [] :=
  ⟨[], [], rfl, rfl, rfl⟩

/-- Behind a sign a new term begins. -/
theorem Sign.opens_role (sign : Sign) (e : Expression) :
    sign.role.Opens (e.tokens ++ [sign.token]) := by
  cases sign <;> exact ⟨e, rfl⟩

/-- An operand has been read in its slot. -/
theorem Position.Opens.operand {goal : ValueStatement} {slot : OperandSlot}
    {outer : List OperandSlot} {ts : List Token} (h : (Position.operand goal slot outer).Opens ts)
    (f : Factor) : (Position.operator goal slot.term outer).Opens (ts ++ f.tokens) := by
  obtain ⟨us, vs, _, hgoal, houter, ⟨ws, xs, hterm, hfactor, rfl⟩, rfl⟩ := h
  obtain ⟨t, ht⟩ := hfactor.exists_term f
  exact ⟨us, vs, ws, t, hgoal, houter, hterm, by simp [ht]⟩

namespace Reading

variable {r r' : Reading} {t : Token} {es : List Event} {us : List Token}

theorem consumed_start : start.Consumed [] :=
  ⟨[], [], rfl, rfl, rfl⟩

/-- Inside a statement, only the front part of that statement grows. -/
theorem Consumed.within {p p' : Position} {n : Nat} (h : Consumed ⟨p, n⟩ us)
    (hp : ∀ vs, p.Opens vs → p'.Opens (vs ++ [t])) : Consumed ⟨p', n⟩ (us ++ [t]) := by
  obtain ⟨ss, vs, hlen, hopen, rfl⟩ := h
  exact ⟨ss, vs ++ [t], hlen, hp vs hopen, List.append_assoc ..⟩

/-- A semicolon behind a statement completes it. -/
theorem Consumed.terminate {p : Position} {n : Nat} (h : Consumed ⟨p, n⟩ us)
    (hp : ∀ vs, p.Opens vs → ∃ s : Statement, s.tokens = vs) :
    Consumed ⟨.statement, n + 1⟩ (us ++ [.semicolon]) := by
  obtain ⟨ss, vs, hlen, hopen, rfl⟩ := h
  obtain ⟨s, rfl⟩ := hp vs hopen
  refine ⟨ss ++ [s], [], ?_, rfl, ?_⟩
  · simp only at hlen
    simp [hlen]
  · simp [Statement.listTokens]

/-- **Soundness of a move.** What has been read keeps its shape. -/
theorem Consumed.move (h : r.Consumed us) (hmove : Move r t es r') :
    r'.Consumed (us ++ [t]) := by
  cases hmove with
  | declarator n =>
    refine h.within ?_
    intro vs hvs
    obtain rfl := hvs
    rfl
  | ret n =>
    refine h.within ?_
    intro vs hvs
    obtain rfl := hvs
    exact ⟨_, [], [], rfl, rfl, OperandSlot.opens_default, rfl⟩
  | target n x =>
    refine h.within ?_
    intro vs hvs
    obtain rfl := hvs
    exact ⟨x, rfl⟩
  | declaredName n x =>
    refine h.within ?_
    intro vs hvs
    obtain rfl := hvs
    exact ⟨x, rfl⟩
  | assignSign n =>
    refine h.within ?_
    intro vs hvs
    obtain ⟨x, rfl⟩ := hvs
    exact ⟨_, [], [], ⟨x, rfl⟩, rfl, OperandSlot.opens_default, rfl⟩
  | openParen n goal slot outer =>
    refine h.within ?_
    intro vs hvs
    obtain ⟨goalTokens, outerTokens, slotTokens, hgoal, houter, hslot, rfl⟩ := hvs
    exact ⟨goalTokens, outerTokens ++ slotTokens ++ [.openParen], [], hgoal,
      ⟨outerTokens, slotTokens, houter, hslot, rfl⟩, OperandSlot.opens_default, by simp⟩
  | name n goal slot outer x => exact h.within fun vs hvs => hvs.operand (.name x)
  | literal n goal slot outer text => exact h.within fun vs hvs => hvs.operand (.literal text)
  | times n goal term outer =>
    refine h.within ?_
    intro vs hvs
    obtain ⟨goalTokens, outerTokens, termTokens, t, hgoal, houter, hterm, rfl⟩ := hvs
    exact ⟨goalTokens, outerTokens, _, hgoal, houter,
      ⟨termTokens, t.tokens ++ [.times], hterm, ⟨t, rfl⟩, rfl⟩, by simp⟩
  | sign n goal term outer sign =>
    refine h.within ?_
    intro vs hvs
    obtain ⟨goalTokens, outerTokens, termTokens, t, hgoal, houter, hterm, rfl⟩ := hvs
    obtain ⟨e, he⟩ := hterm.exists_expression t
    exact ⟨goalTokens, outerTokens, _, hgoal, houter,
      ⟨e.tokens ++ [sign.token], [], sign.opens_role e, rfl, rfl⟩, by simp [he]⟩
  | closeParen n goal term slot outer =>
    refine h.within ?_
    intro vs hvs
    obtain ⟨goalTokens, _, termTokens, t, hgoal, ⟨outerTokens, slotTokens, houter, hslot, rfl⟩,
      hterm, rfl⟩ := hvs
    obtain ⟨e, he⟩ := hterm.exists_expression t
    have hoperand : (Position.operand goal slot outer).Opens
        (goalTokens ++ outerTokens ++ slotTokens) :=
      ⟨goalTokens, outerTokens, slotTokens, hgoal, houter, hslot, rfl⟩
    simpa [Factor.tokens, he] using hoperand.operand (.paren e)
  | value n goal term =>
    refine h.terminate ?_
    intro vs hvs
    obtain ⟨goalTokens, _, termTokens, t, hgoal, rfl, hterm, rfl⟩ := hvs
    obtain ⟨e, he⟩ := hterm.exists_expression t
    obtain ⟨s, hs⟩ := hgoal.exists_statement e
    exact ⟨s, by simp [hs, he]⟩
  | terminator n =>
    refine h.terminate ?_
    intro vs hvs
    obtain ⟨x, rfl⟩ := hvs
    exact ⟨.declare x, rfl⟩

/-- Where the program may end, a program has been read. -/
theorem Consumed.exists_program (h : r.Consumed us) (hposition : r.position = .statement)
    (hcomplete : r.complete ≠ 0) : ∃ p : Program, p.tokens = us := by
  obtain ⟨ss, vs, hlen, hopen, rfl⟩ := h
  rw [hposition] at hopen
  obtain rfl := hopen
  have hne : ss ≠ [] := by
    rintro rfl
    exact hcomplete hlen.symm
  exact ⟨⟨ss, hne⟩, by simp [Program.tokens]⟩

/-- **Soundness.** Whatever is accepted begins with a program and the end token. -/
theorem Consumed.exists_program_of_outcomeFrom {ε : Type} {ts : List Token} (h : r.Consumed us)
    (hok : (r.outcomeFrom ts : Except (ParseError ε) Unit) = .ok ()) :
    ∃ (p : Program) (rest : List Token), us ++ ts = p.tokens ++ .eof :: rest := by
  induction ts generalizing r us with
  | nil => cases hok
  | cons t ts ih =>
    rw [outcomeFrom] at hok
    split at hok
    · next r' hprogress =>
      obtain ⟨p, rest, heq⟩ := ih (h.move (move_of_progress hprogress)) hok
      exact ⟨p, rest, by rw [← heq, List.append_assoc, List.singleton_append]⟩
    · next hprogress =>
      obtain ⟨rfl, hposition, hcomplete⟩ := advance_accepted_iff.mp hprogress
      obtain ⟨p, rfl⟩ := h.exists_program hposition hcomplete
      exact ⟨p, ts, rfl⟩
    · cases hok

end Reading

/-! ## Acceptance -/

mutual

theorem Expression.eof_not_shifted (e : Expression) : .shift .eof ∉ e.events := by
  match e with
  | .single t => simpa [Expression.events] using t.eof_not_shifted
  | .more e sign t =>
    have hsign : Token.eof ≠ sign.token := by cases sign <;> simp [Sign.token]
    simpa [Expression.events, hsign] using ⟨e.eof_not_shifted, t.eof_not_shifted⟩

theorem Term.eof_not_shifted (t : Term) : .shift .eof ∉ t.events := by
  match t with
  | .single f => simpa [Term.events] using f.eof_not_shifted
  | .times t f => simpa [Term.events] using ⟨t.eof_not_shifted, f.eof_not_shifted⟩

theorem Factor.eof_not_shifted (f : Factor) : .shift .eof ∉ f.events := by
  match f with
  | .paren e => simpa [Factor.events] using e.eof_not_shifted
  | .name x => simp [Factor.events]
  | .literal text => simp [Factor.events]

end

theorem Statement.eof_not_shifted (s : Statement) : .shift .eof ∉ s.events := by
  cases s with
  | declare x => simp [Statement.events]
  | assign x e => simpa [Statement.events] using e.eof_not_shifted
  | ret e => simpa [Statement.events] using e.eof_not_shifted

/-- A program has no end token of its own. -/
theorem Program.eof_not_shifted (p : Program) : .shift .eof ∉ p.events := by
  have hlist : Event.shift .eof ∉ Statement.listEvents p.statements := by
    intro h
    obtain ⟨s, _, hs⟩ := List.mem_flatMap.mp h
    simp [s.eof_not_shifted] at hs
  simp [Program.events, hlist, List.mem_replicate]

/-- **The parser accepts exactly the yields of derivations.** An observer that refuses nothing is
told the bottom-up parse of the derivation and then the acceptance, whatever stands behind the end
token; the end token itself is never shifted. And a parse that succeeds has read a derivation. -/
theorem parse_accepts_derivations {σ ε : Type} (o : Observer σ ε) (ho : o.NeverRefuses) :
    (∀ (d : Derivation (.nonterminal .program)) (rest : List Token),
      (parse (Observer.recorder : Observer (List Event) ε) (d.yield ++ .eof :: rest)).run [] =
          (.ok (), d.postorder ++ [.accept]) ∧
        .shift .eof ∉ d.postorder ∧
        ∀ s, ∃ s', (parse o (d.yield ++ .eof :: rest)).run s = (.ok (), s') ∧
          (o.deliver (d.postorder ++ [.accept])).run s = (.ok (), s')) ∧
    ∀ (tokens : List Token) (s s' : σ), (parse o tokens).run s = (.ok (), s') →
      ∃ (d : Derivation (.nonterminal .program)) (rest : List Token),
        tokens = d.yield ++ .eof :: rest := by
  constructor
  · intro d rest
    obtain ⟨p, hyield, hpostorder⟩ := d.exists_program
    rw [hyield, hpostorder]
    refine ⟨?_, p.eof_not_shifted, fun s => ?_⟩
    · rw [parse, Reading.run_parseFrom_eq_ok, p.eventsFrom_tokens]
      exact ⟨Observer.run_deliver_recorder _ _, p.outcomeFrom_tokens rest⟩
    · obtain ⟨s', hs'⟩ := ho.run_deliver (p.events ++ [.accept]) s
      refine ⟨s', ?_, hs'⟩
      rw [parse, Reading.run_parseFrom_eq_ok, p.eventsFrom_tokens]
      exact ⟨hs', p.outcomeFrom_tokens rest⟩
  · intro tokens s s' hok
    rw [parse, Reading.run_parseFrom_eq_ok] at hok
    obtain ⟨p, rest, heq⟩ := Reading.consumed_start.exists_program_of_outcomeFrom hok.2
    obtain ⟨d, hyield, _⟩ := p.exists_derivation
    exact ⟨d, rest, by rw [hyield, ← heq, List.nil_append]⟩

/-- The program `return (1 + x) * 2;`. -/
def sumTimesTwo : Program where
  statements := [.ret (.single (.times (.single (.paren
    (.more (.single (.single (.literal "1"))) .plus (.single (.name "x"))))) (.literal "2")))]
  nonempty := by simp

theorem parse_accepts_sumTimesTwo :
    (Observer.recorder : Observer (List Event) String).NeverRefuses ∧
      ∃ d : Derivation (.nonterminal .program),
        d.yield = [.keyword .ret, .openParen, .literal "1", .plus, .ident "x", .closeParen, .times,
          .literal "2", .semicolon] ∧
        (parse (Observer.recorder : Observer (List Event) String)
          (d.yield ++ [.eof, .semicolon])).run [] = (.ok (), d.postorder ++ [.accept]) := by
  obtain ⟨d, hyield, -⟩ := sumTimesTwo.exists_derivation
  refine ⟨Observer.neverRefuses_recorder, d, hyield, ?_⟩
  exact ((parse_accepts_derivations _ Observer.neverRefuses_recorder).1 d [.semicolon]).1

end StraightLine
