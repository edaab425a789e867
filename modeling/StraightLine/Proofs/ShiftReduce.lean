import StraightLine.Proofs.EarliestError

/-!
# Every parse is a shift-reduce run

The parser keeps a position, not a stack, and it reduces a list of statements from a counter. Still
the events that it tells are those of a machine that has nothing but a stack of grammar symbols: it
shifts a token by putting its kind on the stack, and it reduces a production by taking its body off
and putting its head on. This is so for every token list, also where a token that does not fit cuts
the parse short.

The machine is `replay`, which fails as soon as an event does not fit. The acceptance is the last
event if there is one, and then a program is all that is left on the stack.

## Main definitions

* `Event.onStack?`, `replay` — events on a stack of symbols

## Main results

* `replay_eq_some_iff` — a replay succeeds where every event fits
* `Reading.accept_advance`, `Reading.accept_eventsFrom` — where the acceptance stands
* `parse_is_shift_reduce` — the events of every parse can be replayed
-/

namespace StraightLine

/-! ## Replaying events -/

/-- The stack behind an event, if the event fits the stack. -/
def Event.onStack? (ss : List GrammarSymbol) : Event → Option (List GrammarSymbol)
  | .shift t => some (.terminal t.kind :: ss)
  | .reduce p =>
    if p.body.reverse <+: ss then some (.nonterminal p.head :: ss.drop p.arity) else none
  | .accept => if ss = [.nonterminal .program] then some [] else none

/-- The stack behind events in a row, if each of them fits the stack it finds. -/
def replay (es : List Event) (ss : List GrammarSymbol) : Option (List GrammarSymbol) :=
  es.foldlM Event.onStack? ss

variable {e : Event} {es fs : List Event} {ss ss' : List GrammarSymbol}

theorem Production.drop_body_reverse (p : Production) (below : List GrammarSymbol) :
    (p.body.reverse ++ below).drop p.arity = below :=
  List.drop_left' List.length_reverse

theorem Event.onStack?_eq_some_iff : e.onStack? ss = some ss' ↔ e.Fits ss ss' := by
  constructor
  · intro h
    cases e with
    | shift t =>
      cases h
      exact .shift t ss
    | reduce p =>
      rw [onStack?, Option.ite_none_right_eq_some] at h
      obtain ⟨⟨below, rfl⟩, hss'⟩ := h
      rw [p.drop_body_reverse] at hss'
      cases hss'
      exact .reduce p below
    | accept =>
      rw [onStack?, Option.ite_none_right_eq_some] at h
      obtain ⟨rfl, hss'⟩ := h
      cases hss'
      exact .accept
  · intro h
    cases h with
    | shift t => rfl
    | reduce p below =>
      rw [onStack?, if_pos (List.prefix_append ..), p.drop_body_reverse]
    | accept => rfl

/-- **A replay succeeds where every event fits.** -/
theorem replay_eq_some_iff : replay es ss = some ss' ↔ Event.FitAll es ss ss' := by
  induction es generalizing ss with
  | nil =>
    constructor
    · rintro ⟨⟩
      exact .nil _
    · rintro ⟨⟩
      rfl
  | cons e es ih =>
    rw [replay, List.foldlM_cons, Option.bind_eq_bind, Option.bind_eq_some_iff]
    constructor
    · rintro ⟨mid, hfirst, hothers⟩
      exact .cons (Event.onStack?_eq_some_iff.mp hfirst) (ih.mp hothers)
    · intro h
      cases h with
      | cons first others => exact ⟨_, Event.onStack?_eq_some_iff.mpr first, ih.mpr others⟩

/-- Events that fit a stack fit it piece by piece. -/
theorem Event.FitAll.of_append (h : FitAll (es ++ fs) ss ss') :
    ∃ mid, FitAll es ss mid ∧ FitAll fs mid ss' := by
  induction es generalizing ss with
  | nil => exact ⟨ss, .nil ss, h⟩
  | cons e es ih =>
    cases h with
    | cons first others =>
      obtain ⟨mid, hes, hfs⟩ := ih others
      exact ⟨mid, .cons first hes, hfs⟩

/-- Where an event is replayed among others, it fits the stack of those in front of it. -/
theorem exists_fits_of_replay (h : replay (es ++ e :: fs) ss = some ss') :
    ∃ mid mid', replay es ss = some mid ∧ e.Fits mid mid' ∧
      replay (es ++ [e]) ss = some mid' := by
  obtain ⟨mid, hes, hrest⟩ := (replay_eq_some_iff.mp h).of_append
  cases hrest with
  | cons first _ =>
    exact ⟨mid, _, replay_eq_some_iff.mpr hes, first,
      replay_eq_some_iff.mpr (hes.append (.single first))⟩

/-! ## Where the acceptance stands -/

namespace Reading

variable {r r' : Reading} {t : Token}

theorem Move.accept_not_mem (h : Move r t es r') : .accept ∉ es := by
  cases h <;> simp

/-- A token that ends a program settles the acceptance, behind everything else. No other token
does. -/
theorem accept_advance (r : Reading) (t : Token) :
    (r.advance t).progress = .accepted ∧
        (∃ front, (r.advance t).events = front ++ [.accept] ∧ .accept ∉ front) ∨
      (r.advance t).progress ≠ .accepted ∧ .accept ∉ (r.advance t).events := by
  cases hprogress : (r.advance t).progress with
  | resume r' => exact .inr ⟨by simp, (move_of_progress hprogress).accept_not_mem⟩
  | accepted =>
    obtain ⟨rfl, hposition, hcomplete⟩ := advance_accepted_iff.mp hprogress
    obtain ⟨position, n⟩ := r
    obtain rfl : position = .statement := hposition
    rw [advance_eof n hcomplete]
    refine .inl ⟨rfl, .reduce .lastStatement ::
      List.replicate (n - 1) (.reduce .statementList) ++ [.reduce .program], ?_, ?_⟩
    · simp [closingEvents]
    · simp [List.mem_replicate]
  | expected what =>
    refine .inr ⟨by simp, ?_⟩
    rcases events_of_expected hprogress with hnone | ⟨goal, term, outer, -, hevents | ⟨-, hevents⟩⟩
    · simp [hnone]
    · simp [hevents]
    · simp [hevents]

/-- **The acceptance is the last event of a parse that succeeds**, and of no other parse is it an
event at all. -/
theorem accept_eventsFrom {ε : Type} (r : Reading) (ts : List Token) :
    (r.outcomeFrom ts : Except (ParseError ε) Unit) = .ok () ∧
        (∃ front, r.eventsFrom ts = front ++ [.accept] ∧ .accept ∉ front) ∨
      (r.outcomeFrom ts : Except (ParseError ε) Unit) ≠ .ok () ∧ .accept ∉ r.eventsFrom ts := by
  induction ts generalizing r with
  | nil => exact .inr ⟨by simp [outcomeFrom], by simp [eventsFrom]⟩
  | cons t ts ih =>
    rw [outcomeFrom, eventsFrom]
    rcases accept_advance r t with ⟨hprogress, hlast⟩ | ⟨hprogress, hnot⟩
    · rw [hprogress, List.append_nil]
      exact .inl ⟨rfl, hlast⟩
    · cases hresume : (r.advance t).progress with
      | accepted => exact absurd hresume hprogress
      | expected what => exact .inr ⟨by simp, by simpa using hnot⟩
      | resume r' =>
        rcases ih r' with ⟨hok, front, heq, hfront⟩ | ⟨herror, hrest⟩
        · refine .inl ⟨hok, (r.advance t).events ++ front, ?_, ?_⟩
          · rw [List.append_assoc, ← heq]
          · simp [hnot, hfront]
        · exact .inr ⟨herror, by simp [hnot, hrest]⟩

/-- What a parse shifts is a prefix of its tokens, without an end token. -/
theorem shiftedTokens_eventsFrom (ts : List Token) :
    shiftedTokens (start.eventsFrom ts) <+: ts ∧ .eof ∉ shiftedTokens (start.eventsFrom ts) := by
  rcases reads_or_stuck start ts with ⟨es, r, hread⟩ | ⟨u, t, rest, es, r, rfl, hread, hstuck⟩
  · rw [(hread.outcomeFrom_eq (ε := Unit)).2, hread.shiftedTokens]
    exact ⟨List.prefix_refl ts, hread.eof_not_mem⟩
  · have hstops : Stops u es r t := ⟨hread, hstuck⟩
    rw [hstops.eventsFrom_eq, hstops.shiftedTokens]
    exact ⟨List.prefix_append .., hread.eof_not_mem⟩

end Reading

/-- An element that a list has at its end and nowhere else is followed by nothing. -/
theorem eq_of_append_cons_eq_concat {α : Type} {front xs ys : List α} {a : α}
    (ha : a ∉ front) (h : front ++ [a] = xs ++ a :: ys) : xs = front ∧ ys = [] := by
  rcases List.eq_nil_or_concat ys with rfl | ⟨ys, b, rfl⟩
  · exact ⟨(List.append_inj' h rfl).1.symm, rfl⟩
  · rw [List.concat_eq_append, ← List.cons_append, ← List.append_assoc] at h
    obtain ⟨rfl, -⟩ := List.append_inj' h rfl
    simp at ha

/-! ## Every parse -/

/-- **The events of every parse are a shift-reduce run.** Let `ev` be what an observer that refuses
nothing is told, whatever the tokens and however the parse ends. The replay of `ev` from the empty
stack succeeds; every reduction finds the body of its production on top of the stack and leaves the
head in its place; what is shifted is a prefix of the tokens and has no end token; and the
acceptance is told exactly if the parse succeeds, once, as the last event, when a program is all
that is on the stack. -/
theorem parse_is_shift_reduce {σ ε : Type} {o : Observer σ ε} (ho : o.NeverRefuses)
    {tokens : List Token} {s s' : σ} {r : Except (ParseError ε) Unit} {ev : List Event}
    (hrun : (parse o.logged tokens).run (s, []) = (r, s', ev)) :
    (parse o tokens).run s = (r, s') ∧
    (∃ stack, replay ev [] = some stack) ∧
    (∀ front p back, ev = front ++ .reduce p :: back →
      ∃ below, replay front [] = some (p.body.reverse ++ below) ∧
        replay (front ++ [.reduce p]) [] = some (.nonterminal p.head :: below)) ∧
    (shiftedTokens ev <+: tokens ∧ .eof ∉ shiftedTokens ev) ∧
    (.accept ∈ ev ↔ r = .ok ()) ∧
    ∀ front back, ev = front ++ .accept :: back →
      back = [] ∧ .accept ∉ front ∧ replay front [] = some [.nonterminal .program] := by
  -- the observer is told the events of the parse that nobody watches
  have hrecorded := Observer.run_parse_recorder (ε := ε) tokens
  obtain ⟨last, haccepts⟩ := ho.exists_accepts s (Reading.start.eventsFrom tokens)
  rw [(haccepts.logged []).run_parse hrecorded, List.nil_append] at hrun
  cases hrun
  obtain ⟨stack, hfit, -⟩ := Reading.fitAll_eventsFrom (ε := ε) Reading.start tokens
  have hreplay : replay (Reading.start.eventsFrom tokens) [] = some stack :=
    replay_eq_some_iff.mpr hfit
  refine ⟨haccepts.run_parse hrecorded, ⟨stack, hreplay⟩, fun front p back heq => ?_,
    Reading.shiftedTokens_eventsFrom tokens, ?_, fun front back heq => ?_⟩
  · rw [heq] at hreplay
    obtain ⟨mid, mid', hfront, hfits, hbehind⟩ := exists_fits_of_replay hreplay
    cases hfits with
    | reduce _ below => exact ⟨below, hfront, hbehind⟩
  · rcases Reading.accept_eventsFrom (ε := ε) Reading.start tokens with
      ⟨hok, front, heq, -⟩ | ⟨herror, hnot⟩
    · exact iff_of_true (by simp [heq]) hok
    · exact iff_of_false hnot herror
  · rcases Reading.accept_eventsFrom (ε := ε) Reading.start tokens with
      ⟨-, front', heq', hfront'⟩ | ⟨-, hnot⟩
    · obtain ⟨rfl, rfl⟩ := eq_of_append_cons_eq_concat hfront' (heq'.symm.trans heq)
      rw [heq] at hreplay
      obtain ⟨mid, mid', hfront, hfits, -⟩ := exists_fits_of_replay hreplay
      cases hfits with
      | accept => exact ⟨rfl, hfront', hfront⟩
    · simp [heq] at hnot

/-- The tokens of `return 1 * (2 + 3;`, which lacks a parenthesis. -/
def unclosedReturn : List Token :=
  [.keyword .ret, .literal "1", .times, .openParen, .literal "2", .plus, .literal "3", .semicolon,
    .eof]

/-- The events of `return 1 * (2 + 3;` in front of the last one. -/
def unclosedReturnEvents : List Event :=
  [.shift (.keyword .ret), .shift (.literal "1"), .reduce .literal, .reduce .term, .shift .times,
    .shift .openParen, .shift (.literal "2"), .reduce .literal, .reduce .term, .reduce .expression,
    .shift .plus, .shift (.literal "3"), .reduce .literal, .reduce .term]

/-- The parse of `return 1 * (2 + 3;` stops inside the parenthesis. Its last event is the reduction
of the sum, and the replay ends with the open parenthesis below it. -/
theorem parse_is_shift_reduce_unclosedReturn :
    (Observer.recorder : Observer (List Event) String).NeverRefuses ∧
      (parse (Observer.recorder : Observer (List Event) String).logged unclosedReturn).run ([], []) =
        (.error (.unexpectedToken "`)`" .semicolon), unclosedReturnEvents ++ [.reduce .add],
          unclosedReturnEvents ++ [.reduce .add]) ∧
      (∃ below, replay unclosedReturnEvents [] = some (Production.add.body.reverse ++ below) ∧
        .terminal .openParen ∈ below) ∧
      .accept ∉ unclosedReturnEvents ++ [.reduce .add] := by
  have hnever : (Observer.recorder : Observer (List Event) String).NeverRefuses :=
    Observer.neverRefuses_recorder
  have hrun : (parse (Observer.recorder : Observer (List Event) String).logged
      unclosedReturn).run ([], []) = (.error (.unexpectedToken "`)`" .semicolon),
        unclosedReturnEvents ++ [.reduce .add], unclosedReturnEvents ++ [.reduce .add]) := rfl
  obtain ⟨-, -, hreduce, -, haccept, -⟩ := parse_is_shift_reduce hnever hrun
  obtain ⟨below, hbelow, -⟩ := hreduce unclosedReturnEvents .add [] rfl
  refine ⟨hnever, hrun, ⟨below, hbelow, ?_⟩, ?_⟩
  · cases hbelow
    decide
  · rw [haccept]
    exact nofun

end StraightLine
