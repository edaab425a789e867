import Mathlib
import StraightLine.Compilation
import StraightLine.Grammar.Descent
import StraightLine.Proofs.InPlace

/-!
# Recursive descent and one token at a time

Recursive descent keeps what is due in the functions that have been called and have not returned. A
`Reading` keeps it as data. The two are compared phrase by phrase: a function that is called where a
phrase is due, followed by whatever is called behind it, does what the reading does from there on,
if what is called behind it does what the reading does behind the phrase.

## Main definitions

* `Descent.outcome` — a descent from given tokens, as an action on the state of the observer
* `Step.follow` — what a reading does at one token and from there on

## Main results

* `Descent.agrees` — the functions of an expression, whatever is called behind them
* `Descent.parse_eq_parse` — recursive descent is the reading, token by token
* `Descent.analyse_eq` — an analysis by recursive descent, with all effects in place
-/

namespace StraightLine

variable {σ ε α β : Type} {o : Observer σ ε}

/-! ## What a reading does at one token -/

/-- Tell an observer one event. -/
def Observer.told (o : Observer σ ε) (e : Event) : Action σ (ParseError ε) Unit :=
  (o.notify e).mapError .action

/-- Tell the events of a step and go on where it leads. -/
def Step.follow (o : Observer σ ε) (step : Step) (t : Token) (ts : List Token) :
    Action σ (ParseError ε) Unit := do
  (o.deliver step.events).mapError .action
  match step.progress with
  | .resume r => r.parseFrom o ts
  | .accepted => pure ()
  | .expected what => .fail (.unexpectedToken what t)

theorem Reading.parseFrom_cons (r : Reading) (t : Token) (ts : List Token) :
    r.parseFrom o (t :: ts) = (r.advance t).follow o t ts :=
  rfl

theorem Observer.deliver_cons_mapError (e : Event) (es : List Event) :
    ((o.deliver (e :: es)).mapError .action : Action σ (ParseError ε) Unit) =
      o.told e >>= fun _ => (o.deliver es).mapError .action := by
  funext s
  change ((o.notify e >>= fun _ => o.deliver es).mapError _).run s =
    ((o.notify e).mapError _ >>= fun _ => _).run s
  rw [Action.run_mapError]
  rcases h : (o.notify e).run s with ⟨err | u, s'⟩
  · rw [Action.run_bind_of_error h, Action.run_bind_of_error (by rw [Action.run_mapError, h]; rfl)]
    rfl
  · rw [Action.run_bind_of_ok h, Action.run_bind_of_ok (by rw [Action.run_mapError, h]; rfl),
      Action.run_mapError]

theorem Step.follow_cons (e : Event) (es : List Event) (next : Progress) (t : Token)
    (ts : List Token) :
    Step.follow o ⟨e :: es, next⟩ t ts = o.told e >>= fun _ => Step.follow o ⟨es, next⟩ t ts := by
  rw [follow, Observer.deliver_cons_mapError, Action.bind_assoc]
  rfl

theorem Step.follow_resume (r : Reading) (t : Token) (ts : List Token) :
    Step.follow o ⟨[], .resume r⟩ t ts = r.parseFrom o ts :=
  rfl

theorem Step.follow_expected (what : String) (t : Token) (ts : List Token) :
    Step.follow o ⟨[], .expected what⟩ t ts = .fail (.unexpectedToken what t) :=
  rfl

namespace Descent

/-! ## What a descent does to the observer -/

/-- A descent from given tokens, as an action on the state of the observer. -/
def outcome (x : Descent σ ε α) (ts : List Token) : Action σ (ParseError ε) α := fun s =>
  ((x.run (ts, s)).1, (x.run (ts, s)).2.2)

theorem outcome_pure (a : α) (ts : List Token) :
    outcome (pure a : Descent σ ε α) ts = pure a :=
  rfl

theorem outcome_fail_bind (e : ParseError ε) (k : α → Descent σ ε β) (ts : List Token) :
    outcome (.fail e >>= k) ts = .fail e :=
  rfl

theorem outcome_peek_nil (k : Token → Descent σ ε β) :
    outcome (peek >>= k) [] = .fail .unexpectedEnd :=
  rfl

theorem outcome_peek_cons (k : Token → Descent σ ε β) (t : Token) (ts : List Token) :
    outcome (peek >>= k) (t :: ts) = outcome (k t) (t :: ts) :=
  rfl

theorem outcome_tell (e : Event) (k : Unit → Descent σ ε β) (ts : List Token) :
    outcome (tell o e >>= k) ts = o.told e >>= fun _ => outcome (k ()) ts := by
  funext s
  change (((tell o e >>= k).run (ts, s)).1, ((tell o e >>= k).run (ts, s)).2.2) =
    (o.told e >>= fun _ => outcome (k ()) ts).run s
  have htell : (tell o e).run (ts, s) = (((o.told e).run s).1, ts, ((o.told e).run s).2) := rfl
  rcases h : (o.told e).run s with ⟨err | u, s'⟩ <;> rw [h] at htell
  · rw [Action.run_bind_of_error htell, Action.run_bind_of_error h]
  · rw [Action.run_bind_of_ok htell, Action.run_bind_of_ok h]
    rfl

theorem outcome_reduce (p : Production) (k : Unit → Descent σ ε β) (ts : List Token) :
    outcome (reduce o p >>= k) ts = o.told (.reduce p) >>= fun _ => outcome (k ()) ts :=
  outcome_tell (.reduce p) k ts

theorem outcome_shift (k : Unit → Descent σ ε β) (t : Token) (ts : List Token) :
    outcome (shift o >>= k) (t :: ts) = o.told (.shift t) >>= fun _ => outcome (k ()) ts :=
  outcome_tell (.shift t) k ts

theorem outcome_expect (due : Token) (what : String) (k : Unit → Descent σ ε β) (t : Token)
    (ts : List Token) :
    outcome (expect o due what >>= k) (t :: ts) =
      if t = due then outcome (shift o >>= k) (t :: ts)
      else .fail (.unexpectedToken what t) := by
  rw [expect, Action.bind_assoc, outcome_peek_cons]
  split <;> rfl

section Follow

variable {k : Unit → Descent σ ε Unit} {es : List Event} {next : Progress} {t : Token}
  {ts : List Token}

/-- A token is shifted on both sides. -/
theorem outcome_shift_eq_follow (h : outcome (k ()) ts = Step.follow o ⟨es, next⟩ t ts) :
    outcome (shift o >>= k) (t :: ts) = Step.follow o ⟨.shift t :: es, next⟩ t ts := by
  rw [outcome_shift, Step.follow_cons, h]

/-- A production is reduced on both sides. -/
theorem outcome_reduce_eq_follow {p : Production} {ts' : List Token}
    (h : outcome (k ()) ts' = Step.follow o ⟨es, next⟩ t ts) :
    outcome (reduce o p >>= k) ts' = Step.follow o ⟨.reduce p :: es, next⟩ t ts := by
  rw [outcome_reduce, Step.follow_cons, h]

end Follow

/-! ## What is called behind a phrase -/

/-- What a reading does behind the last term of an expression, at a token that does not continue the
term: all but the reduction of that term. -/
def afterTerm (goal : ValueStatement) (outer : List OperandSlot) (c : Nat) (t : Token) : Step :=
  let step := Reading.continueExpression ⟨.statement, c⟩ goal .first outer t
  { step with events := step.events.tail }

/-- What a reading does behind an expression, the reduction of its last term apart. -/
def afterExpression (goal : ValueStatement) (outer : List OperandSlot) (c : Nat) (t : Token) :
    Step :=
  let step := Reading.endExpression ⟨.statement, c⟩ goal .first outer t
  { step with events := step.events.tail }

theorem continueExpression_eq {t : Token} (ht : t ≠ .times) (r : Reading) (goal : ValueStatement)
    (term : TermRole) (outer : List OperandSlot) :
    r.continueExpression goal term outer t =
      ⟨.reduce term.production :: (afterTerm goal outer r.complete t).events,
        (afterTerm goal outer r.complete t).progress⟩ := by
  cases t with
  | times => exact absurd rfl ht
  | plus | minus => rfl
  | _ =>
    cases outer with
    | nil => rfl
    | cons slot outer => rfl

variable {n c : Nat} {goal : ValueStatement} {role : TermRole} {slot : OperandSlot}
  {outer : List OperandSlot} {k : Unit → Descent σ ε Unit} {ts : List Token}

variable (o) in
/-- What is called behind an expression does what the reading does there. -/
def EndsExpression (n c : Nat) (goal : ValueStatement) (outer : List OperandSlot)
    (k : Unit → Descent σ ε Unit) : Prop :=
  ∀ t ts, (t :: ts).length ≤ n →
    outcome (k ()) (t :: ts) = (afterExpression goal outer c t).follow o t ts

variable (o) in
/-- What is called behind a term does what the reading does there. -/
def EndsTerm (n c : Nat) (goal : ValueStatement) (term : TermRole) (outer : List OperandSlot)
    (k : Unit → Descent σ ε Unit) : Prop :=
  ∀ t ts, (t :: ts).length ≤ n → t ≠ .times →
    outcome (k ()) (t :: ts) = Reading.parseFrom o ⟨.operator goal term outer, c⟩ (t :: ts)

variable (o) in
/-- What is called behind a factor does what the reading does there. -/
def EndsFactor (n c : Nat) (goal : ValueStatement) (slot : OperandSlot) (outer : List OperandSlot)
    (k : Unit → Descent σ ε Unit) : Prop :=
  ∀ ts, ts.length ≤ n →
    outcome (k ()) ts = o.told (.reduce slot.factor.production) >>= fun _ =>
      Reading.parseFrom o ⟨.operator goal slot.term outer, c⟩ ts

theorem EndsFactor.follow (hk : EndsFactor o n c goal slot outer k) (hts : ts.length ≤ n)
    (t : Token) :
    outcome (k ()) ts = Step.follow o
      ⟨[.reduce slot.factor.production], .resume ⟨.operator goal slot.term outer, c⟩⟩ t ts := by
  rw [hk ts hts, Step.follow_cons]
  rfl

theorem EndsExpression.mono {m : Nat} (hk : EndsExpression o n c goal outer k) (h : m ≤ n) :
    EndsExpression o m c goal outer k :=
  fun t ts hts => hk t ts (hts.trans h)

theorem EndsTerm.mono {m : Nat} (hk : EndsTerm o n c goal role outer k) (h : m ≤ n) :
    EndsTerm o m c goal role outer k :=
  fun t ts hts => hk t ts (hts.trans h)

variable (o) in
/-- Each function of an expression does what the reading does where its phrase is due, with up to
`n` tokens ahead. -/
structure Agrees (n : Nat) : Prop where
  sums : ∀ {t ts c goal outer k}, (t :: ts).length ≤ n → t ≠ .times →
    EndsExpression o n c goal outer k →
    outcome (sums o n >>= k) (t :: ts) = (afterTerm goal outer c t).follow o t ts
  products : ∀ {ts c goal term outer k}, ts.length ≤ n → EndsTerm o n c goal term outer k →
    outcome (products o n >>= k) ts = Reading.parseFrom o ⟨.operator goal term outer, c⟩ ts
  factor : ∀ {ts c goal slot outer k}, ts.length ≤ n → EndsFactor o n c goal slot outer k →
    outcome (factor o n >>= k) ts = Reading.parseFrom o ⟨.operand goal slot outer, c⟩ ts

theorem parseFrom_operator (t : Token) (ts : List Token) :
    Reading.parseFrom o ⟨.operator goal role outer, c⟩ (t :: ts) =
      (Reading.continueExpression ⟨.operator goal role outer, c⟩ goal role outer t).follow o t ts :=
  rfl

theorem parseFrom_operand (t : Token) (ts : List Token) :
    Reading.parseFrom o ⟨.operand goal slot outer, c⟩ (t :: ts) =
      (Reading.beginOperand ⟨.operand goal slot outer, c⟩ goal slot outer t).follow o t ts :=
  rfl

namespace Agrees

/-- A term is due. -/
theorem term (h : Agrees o n) (hts : ts.length ≤ n) (hk : EndsTerm o n c goal role outer k) :
    outcome (term o n >>= k) ts =
      Reading.parseFrom o ⟨.operand goal ⟨role, .first⟩ outer, c⟩ ts := by
  rw [Descent.term, Action.bind_assoc]
  refine h.factor hts fun ts' hts' => ?_
  rw [Action.bind_assoc, outcome_reduce, h.products hts' hk]
  rfl

/-- Behind a term that has its place in an expression, the terms that follow are read. -/
theorem endsTerm (h : Agrees o n) (role : TermRole) (hk : EndsExpression o n c goal outer k) :
    EndsTerm o n c goal role outer fun _ =>
      reduce o role.production >>= fun _ => Descent.sums o n >>= k := by
  intro t ts hts ht
  rw [outcome_reduce, h.sums hts ht hk, parseFrom_operator, continueExpression_eq ht,
    Step.follow_cons]

/-- An expression is due. -/
theorem expression (h : Agrees o n) (hts : ts.length ≤ n)
    (hk : EndsExpression o n c goal outer k) :
    outcome (expression o n >>= k) ts = Reading.parseFrom o ⟨.operand goal {} outer, c⟩ ts := by
  rw [Descent.expression]
  simp only [Action.bind_assoc]
  exact h.term hts (h.endsTerm .first hk)

theorem zero : Agrees o 0 where
  sums hts := by simp at hts
  products {ts} _ _ _ _ _ hts _ := by
    obtain rfl := List.length_eq_zero_iff.mp (Nat.le_zero.mp hts)
    rw [Descent.products]
    rfl
  factor {ts} _ _ _ _ _ hts _ := by
    obtain rfl := List.length_eq_zero_iff.mp (Nat.le_zero.mp hts)
    rw [Descent.factor]
    rfl

theorem products_succ (h : Agrees o n) (hts : ts.length ≤ n + 1)
    (hk : EndsTerm o (n + 1) c goal role outer k) :
    outcome (Descent.products o (n + 1) >>= k) ts =
      Reading.parseFrom o ⟨.operator goal role outer, c⟩ ts := by
  rw [Descent.products, Action.bind_assoc]
  cases ts with
  | nil => rfl
  | cons t ts =>
    rw [outcome_peek_cons]
    split
    · simp only [Action.bind_assoc]
      refine outcome_shift_eq_follow (h.factor (Nat.le_of_succ_le_succ hts) fun ts' hts' => ?_)
      rw [outcome_reduce, h.products hts' (hk.mono n.le_succ)]
      rfl
    · next ht => exact hk t ts hts ht

theorem sums_succ (h : Agrees o n) {t : Token} (hts : (t :: ts).length ≤ n + 1) (ht : t ≠ .times)
    (hk : EndsExpression o (n + 1) c goal outer k) :
    outcome (Descent.sums o (n + 1) >>= k) (t :: ts) =
      (afterTerm goal outer c t).follow o t ts := by
  have hk' := hk.mono n.le_succ
  have hts' := Nat.le_of_succ_le_succ hts
  rw [Descent.sums, Action.bind_assoc, outcome_peek_cons]
  split
  · simp only [Action.bind_assoc]
    exact outcome_shift_eq_follow (h.term hts' (h.endsTerm .addend hk'))
  · simp only [Action.bind_assoc]
    exact outcome_shift_eq_follow (h.term hts' (h.endsTerm .subtrahend hk'))
  · next hplus hminus =>
    have hsame : afterTerm goal outer c t = afterExpression goal outer c t := by
      cases t with
      | times => exact absurd rfl ht
      | plus => exact absurd rfl hplus
      | minus => exact absurd rfl hminus
      | _ => rfl
    rw [hsame]
    exact hk t ts hts

/-- Behind the inside of a parenthesis, the parenthesis is closed. -/
theorem endsExpression_paren (hk : EndsFactor o (n + 1) c goal slot outer k) :
    EndsExpression o n c goal (slot :: outer) fun _ =>
      expect o .closeParen "`)`" >>= fun _ => reduce o .paren >>= k := by
  intro t ts hts
  rw [outcome_expect]
  split
  · next ht =>
    subst ht
    exact outcome_shift_eq_follow (outcome_reduce_eq_follow
      (hk.follow (Nat.le_succ_of_le (Nat.le_of_succ_le hts)) _))
  · next ht =>
    cases t with
    | closeParen => exact absurd rfl ht
    | _ => rfl

theorem factor_succ (h : Agrees o n) (hts : ts.length ≤ n + 1)
    (hk : EndsFactor o (n + 1) c goal slot outer k) :
    outcome (Descent.factor o (n + 1) >>= k) ts =
      Reading.parseFrom o ⟨.operand goal slot outer, c⟩ ts := by
  rw [Descent.factor, Action.bind_assoc]
  cases ts with
  | nil => rfl
  | cons t ts =>
    have hts' := Nat.le_of_succ_le_succ hts
    rw [outcome_peek_cons, parseFrom_operand]
    cases t with
    | openParen =>
      dsimp only
      simp only [Action.bind_assoc]
      exact outcome_shift_eq_follow (h.expression hts' (endsExpression_paren hk))
    | ident _ | literal _ =>
      dsimp only
      rw [Action.bind_assoc]
      exact outcome_shift_eq_follow (outcome_reduce_eq_follow
        (hk.follow (Nat.le_succ_of_le hts') _))
    | _ => rfl

end Agrees

variable (o) in
/-- **Expressions.** Whatever is called behind it, a function of an expression does what the reading
does. -/
theorem agrees (n : Nat) : Agrees o n := by
  -- every call that is not at the front of a function is behind a shift, so the bound is lower
  induction n with
  | zero => exact Agrees.zero
  | succ n ih =>
    exact
      { sums := ih.sums_succ
        products := ih.products_succ
        factor := ih.factor_succ }

/-! ## Statements -/

variable (o) in
/-- What is called behind a statement does what the reading does there. -/
def EndsStatement (n c : Nat) (k : Unit → Descent σ ε Unit) : Prop :=
  ∀ ts, ts.length ≤ n → outcome (k ()) ts = Reading.parseFrom o ⟨.statement, c + 1⟩ ts

/-- The semicolon of a statement. -/
theorem outcome_semicolon (hk : EndsStatement o n c k) {t : Token} (hts : (t :: ts).length ≤ n)
    (r : Reading) (hr : r.complete = c) :
    outcome (expect o .semicolon "`;`" >>= k) (t :: ts) = (r.terminate [] t).follow o t ts := by
  rw [outcome_expect]
  split
  · next ht =>
    subst ht hr
    exact outcome_shift_eq_follow (hk ts (Nat.le_of_succ_le hts))
  · next ht =>
    cases t with
    | semicolon => exact absurd rfl ht
    | _ => rfl

/-- The value of a statement is complete. -/
theorem endsExpression_statement (goal : ValueStatement) (hk : EndsStatement o n c k) :
    EndsExpression o n c goal [] fun _ =>
      reduce o goal.production >>= fun _ => expect o .semicolon "`;`" >>= k := by
  intro t ts hts
  have hsemicolon := outcome_semicolon hk hts ⟨.terminator, c⟩ rfl
  cases t <;> exact outcome_reduce_eq_follow hsemicolon

/-- The name that a declaration declares. -/
theorem outcome_declaredName (hk : EndsStatement o n c k) (hts : ts.length ≤ n) :
    outcome (expectName o >>= fun _ => reduce o .declaration >>= fun _ =>
      expect o .semicolon "`;`" >>= k) ts = Reading.parseFrom o ⟨.declaredName, c⟩ ts := by
  rw [expectName, Action.bind_assoc]
  cases ts with
  | nil => rfl
  | cons t ts =>
    rw [outcome_peek_cons]
    cases t with
    | ident name =>
      refine outcome_shift_eq_follow (outcome_reduce_eq_follow ?_)
      cases ts with
      | nil => rfl
      | cons t ts => exact outcome_semicolon hk (Nat.le_of_succ_le hts) ⟨.terminator, c⟩ rfl
    | _ => rfl

/-- The sign and the value of an assignment. -/
theorem outcome_assignSign (hk : EndsStatement o n c k) (hts : ts.length ≤ n) :
    outcome (expect o .assign "`=`" >>= fun _ => expression o n >>= fun _ =>
      reduce o .assignment >>= fun _ => expect o .semicolon "`;`" >>= k) ts =
      Reading.parseFrom o ⟨.assignSign, c⟩ ts := by
  cases ts with
  | nil => rfl
  | cons t ts =>
    rw [outcome_expect]
    split
    · next ht =>
      subst ht
      exact outcome_shift_eq_follow ((agrees o n).expression (Nat.le_of_succ_le hts)
        (endsExpression_statement .assignment hk))
    · next ht =>
      cases t with
      | assign => exact absurd rfl ht
      | _ => rfl

/-- **One statement** with its semicolon. -/
theorem outcome_statement (hk : EndsStatement o n c k) (hts : ts.length ≤ n + 1)
    (hend : c ≠ 0 → ts.head? ≠ some .eof) :
    outcome (statement o n >>= fun _ => expect o .semicolon "`;`" >>= k) ts =
      Reading.parseFrom o ⟨.statement, c⟩ ts := by
  rw [statement, Action.bind_assoc]
  cases ts with
  | nil => rfl
  | cons t ts =>
    have hts' := Nat.le_of_succ_le_succ hts
    rw [outcome_peek_cons]
    cases t with
    | keyword word =>
      cases word with
      | int =>
        dsimp only
        simp only [Action.bind_assoc]
        exact outcome_shift_eq_follow (outcome_reduce_eq_follow (outcome_declaredName hk hts'))
      | ret =>
        dsimp only
        simp only [Action.bind_assoc]
        exact outcome_shift_eq_follow ((agrees o n).expression hts'
          (endsExpression_statement .ret hk))
    | ident name =>
      dsimp only
      simp only [Action.bind_assoc]
      exact outcome_shift_eq_follow (outcome_assignSign hk hts')
    | eof =>
      have hc : c = 0 := by
        by_contra hc
        exact hend hc rfl
      subst hc
      rfl
    | _ => rfl

/-! ## Programs -/

theorem outcome_reduceLists {es : List Event} {next : Progress} {t : Token} {ts' : List Token}
    (h : outcome (k ()) ts' = Step.follow o ⟨es, next⟩ t ts) (m : Nat) :
    outcome (reduceLists o m >>= k) ts' =
      Step.follow o ⟨List.replicate m (.reduce .statementList) ++ es, next⟩ t ts := by
  induction m with
  | zero => exact h
  | succ m ih =>
    rw [reduceLists, Action.bind_assoc]
    exact outcome_reduce_eq_follow ih

theorem outcome_accept (t : Token) (ts ts' : List Token) :
    outcome (tell o .accept) ts' = Step.follow o ⟨[.accept], .accepted⟩ t ts := by
  rw [← Action.bind_pure (tell o .accept), outcome_tell, Step.follow_cons]
  rfl

theorem outcome_finish (complete : Nat) (t : Token) (ts ts' : List Token) :
    outcome (finish o complete) ts' =
      Step.follow o ⟨closingEvents complete, .accepted⟩ t ts :=
  outcome_reduce_eq_follow
    (outcome_reduceLists (outcome_reduce_eq_follow (outcome_accept t ts ts')) (complete - 1))

/-- All statements that are left, and the end. -/
theorem outcome_statements (hts : ts.length ≤ n) (hend : c ≠ 0 → ts.head? ≠ some .eof) :
    outcome (statements o n c >>= finish o) ts = Reading.parseFrom o ⟨.statement, c⟩ ts := by
  induction n generalizing ts c with
  | zero =>
    obtain rfl := List.length_eq_zero_iff.mp (Nat.le_zero.mp hts)
    rfl
  | succ n ih =>
    rw [statements]
    simp only [Action.bind_assoc]
    refine outcome_statement (fun ts' hts' => ?_) hts hend
    cases ts' with
    | nil => rfl
    | cons t ts' =>
      rw [outcome_peek_cons]
      split
      · next ht =>
        subst ht
        exact outcome_finish (c + 1) .eof ts' _
      · next ht => exact ih hts' fun _ h => ht (Option.some.inj h)

/-- **Recursive descent** tells the observer what the reading tells it, token by token, and ends in
the same way. -/
theorem parse_eq_parse (o : Observer σ ε) (tokens : List Token) :
    parse o tokens = StraightLine.parse o tokens :=
  outcome_statements (Nat.le_refl tokens.length) fun h => absurd rfl h

/-- An analysis is recursive descent with the effects of both observers in place. -/
theorem analyse_eq (tokens : List Token) (symbols : SymbolTable) :
    (parse InPlace.analyst tokens).run { symbols } = analyse tokens symbols := by
  rw [parse_eq_parse, InPlace.analyst_eq, analyse]

end Descent

end StraightLine
