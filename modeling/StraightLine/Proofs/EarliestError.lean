import StraightLine.Proofs.ViablePrefix
import StraightLine.Proofs.Watching

/-!
# Errors are found as early as possible

A parser that reads from left to right should not go on behind a token that fits no program, and it
should not complain about a token that does. This one does neither. When it complains about a token,
it has shifted all in front of that token and nothing else, what it has shifted can be completed to
a sentence, and no sentence goes on with the token. When the list ends without an end token, all of
it has been shifted, and it can be completed.

## Main results

* `Reading.Reads.outcomeFrom_eq` — reading a list to its end is no success
* `Reading.Stops.progress_eq`, `Reading.Stops.not_sentence` — what an unexpected token says
* `parse_error_earliest` — what is true of every syntax error
-/

namespace StraightLine

namespace Reading

variable {r : Reading} {t : Token} {u : List Token} {es : List Event} {ε : Type}

/-- A list that is read to its end lacks the end token. -/
theorem Reads.outcomeFrom_eq (h : Reads start u es r) :
    (start.outcomeFrom u : Except (ParseError ε) Unit) = .error .unexpectedEnd ∧
      start.eventsFrom u = es := by
  have houtcome := h.outcomeFrom_append (ε := ε) []
  have hevents := h.eventsFrom_append []
  rw [List.append_nil] at houtcome hevents
  exact ⟨houtcome, hevents.trans (List.append_nil es)⟩

/-- A token at which the parser stops without success was not what was due. -/
theorem Stops.progress_eq (h : Stops u es r t) {rest : List Token} {e : ParseError ε}
    (he : start.outcomeFrom (u ++ t :: rest) = .error e) :
    ∃ what, (r.advance t).progress = .expected what ∧ e = .unexpectedToken what t := by
  rw [h.reads.outcomeFrom_append, outcomeFrom] at he
  cases hprogress : (r.advance t).progress with
  | resume r' => exact absurd hprogress (h.stuck r')
  | accepted =>
    rw [hprogress] at he
    cases he
  | expected what =>
    rw [hprogress] at he
    cases he
    exact ⟨what, rfl, rfl⟩

/-- If the end token does not fit, what was read is not a sentence. -/
theorem Stops.not_sentence (h : Stops u es r .eof) {what : String}
    (hexpected : (r.advance .eof).progress = .expected what) : ¬ Sentence u := by
  rw [h.sentence_iff rfl h.reads.eof_not_mem, hexpected]
  exact nofun

end Reading

open Reading

/-- **Errors are found as early as possible.** Let `u` be the tokens that were shifted. If a token is
unexpected, it stands behind `u`; `u` can be completed to a sentence, but no sentence goes on with
that token, and at an end token, `u` is not a sentence. If the list ends too early, all of it was
shifted, and it can be completed. -/
theorem parse_error_earliest {σ ε : Type} (o : Observer σ ε) (ho : o.NeverRefuses)
    (tokens : List Token) (s s' : σ) :
    (∀ what found, (parse o tokens).run s = (.error (.unexpectedToken what found), s') →
      ∃ es u rest, (parse (Observer.recorder : Observer (List Event) ε) tokens).run [] =
          (.error (.unexpectedToken what found), es) ∧
        o.Accepts s es s' ∧ shiftedTokens es = u ∧ tokens = u ++ found :: rest ∧ Viable u ∧
        (found ≠ .eof → ∀ v, ¬ Sentence (u ++ found :: v)) ∧ (found = .eof → ¬ Sentence u)) ∧
    ((parse o tokens).run s = (.error .unexpectedEnd, s') →
      ∃ es, (parse (Observer.recorder : Observer (List Event) ε) tokens).run [] =
          (.error .unexpectedEnd, es) ∧
        o.Accepts s es s' ∧ .eof ∉ tokens ∧ shiftedTokens es = tokens ∧ Viable tokens) := by
  have hrecorded := Observer.run_parse_recorder (ε := ε) tokens
  obtain ⟨last, haccepts⟩ := ho.exists_accepts s (start.eventsFrom tokens)
  rw [haccepts.run_parse hrecorded, hrecorded]
  rcases reads_or_stuck start tokens with ⟨es, r, hread⟩ |
    ⟨u, t, rest, es, r, rfl, hread, hstuck⟩
  · obtain ⟨houtcome, hevents⟩ := hread.outcomeFrom_eq (ε := ε)
    rw [hevents] at haccepts
    rw [houtcome, hevents]
    refine ⟨nofun, ?_⟩
    rintro ⟨⟩
    exact ⟨es, rfl, haccepts, hread.eof_not_mem, hread.shiftedTokens,
      viable_iff_reads.mpr ⟨es, r, hread⟩⟩
  · have hstops : Stops u es r t := ⟨hread, hstuck⟩
    have hshifted : shiftedTokens (start.eventsFrom (u ++ t :: rest)) = u := by
      rw [hstops.eventsFrom_eq, hstops.shiftedTokens]
    refine ⟨fun what found h => ?_, fun h => ?_⟩
    · obtain ⟨herror, rfl⟩ := Prod.mk.inj h
      obtain ⟨_, hexpected, ⟨⟩⟩ := hstops.progress_eq herror
      refine ⟨_, u, rest, by rw [herror], haccepts, hshifted, rfl,
        viable_iff_reads.mpr ⟨es, r, hread⟩, fun _ v hsentence => ?_, ?_⟩
      · exact hstops.not_viable v ⟨[], by rwa [List.append_nil]⟩
      · rintro rfl
        exact hstops.not_sentence hexpected
    · obtain ⟨_, _, ⟨⟩⟩ := hstops.progress_eq (Prod.mk.inj h).1

/-- The program `a = (1));` has a parenthesis too many, and `return 1` has no end. -/
theorem parse_error_earliest_parenthesis :
    (Observer.recorder : Observer (List Event) String).NeverRefuses ∧
      ((parse (Observer.recorder : Observer (List Event) String) [.ident "a", .assign, .openParen,
          .literal "1", .closeParen, .closeParen, .semicolon, .eof]).run []).1 =
        .error (.unexpectedToken "`;`" .closeParen) ∧
      ((parse (Observer.recorder : Observer (List Event) String)
          [.keyword .ret, .literal "1"]).run []).1 = .error .unexpectedEnd ∧
      Viable [.ident "a", .assign, .openParen, .literal "1", .closeParen] ∧
      (∀ v, ¬ Sentence
        ([.ident "a", .assign, .openParen, .literal "1", .closeParen] ++ .closeParen :: v)) ∧
      Viable [.keyword .ret, .literal "1"] := by
  have hnever : (Observer.recorder : Observer (List Event) String).NeverRefuses :=
    Observer.neverRefuses_recorder
  have hparen := (parse_error_earliest _ hnever [.ident "a", .assign, .openParen, .literal "1",
    .closeParen, .closeParen, .semicolon, .eof] [] _).1 "`;`" .closeParen rfl
  have hend := (parse_error_earliest _ hnever [.keyword .ret, .literal "1"] [] _).2 rfl
  obtain ⟨es, u, rest, hrun, -, rfl, -, hviable, hno, -⟩ := hparen
  obtain ⟨es', -, -, -, -, hreturn⟩ := hend
  cases hrun
  exact ⟨hnever, rfl, rfl, hviable, hno nofun, hreturn⟩

end StraightLine
