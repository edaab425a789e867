import Mathlib
import StraightLine.Token.Lexer

/-!
# What a lexer gives

A lexer that is still at work gives a token and goes on, or it gives the end token or an error and
is finished. So the tokens of a text are its own, and behind them the end token, once.

## Main results

* `Lexer.next_cases` — what one call gives
* `Lexer.drain_eq` — what all calls together give
* `exists_tokens_eof` — the tokens of a text end with the only end token
-/

namespace StraightLine

/-- No text is the end token. -/
theorem ne_eof_of_lexeme {c : Char} {cs rest : List Char} {t : Token}
    (h : lexeme c cs = .ok (t, rest)) : t ≠ .eof := by
  unfold lexeme at h
  split at h
  · cases h
    unfold Token.ofWord
    split <;> simp
  · split at h
    · cases h
      simp
    · split at h <;> cases h <;> simp

namespace Lexer

variable {l : Lexer}

/-- A call gives the end token or an error and finishes, or it gives another token and goes on. -/
theorem next_cases (h : l.finished = false) :
    (∃ r l', l.next = (some r, l') ∧ l'.finished = true ∧ (r = .ok .eof ∨ ∃ e, r = .error e)) ∨
      ∃ t l', l.next = (some (.ok t), l') ∧ l'.finished = false ∧ t ≠ .eof := by
  rw [next, if_neg (by simp [h])]
  split
  · exact .inl ⟨_, _, rfl, rfl, .inl rfl⟩
  · split
    · next e _ => exact .inl ⟨_, _, rfl, rfl, .inr ⟨e, rfl⟩⟩
    · next t rest hlexeme => exact .inr ⟨t, _, rfl, h, ne_eof_of_lexeme hlexeme⟩

theorem next_of_finished (h : l.finished = true) : l.next = (none, l) := by
  rw [next, if_pos h]

theorem drain_of_finished (h : l.finished = true) : l.drain = ([], l) := by
  rw [drain]
  split
  · next l' hnext =>
    rw [next_of_finished h] at hnext
    cases hnext
    rfl
  · next r l' hnext =>
    rw [next_of_finished h] at hnext
    cases hnext

theorem drain_of_next {l' : Lexer} {r : Except LexError Token} (h : l.next = (some r, l')) :
    l.drain = (r :: l'.drain.1, l'.drain.2) := by
  rw [drain]
  split
  · next hnext =>
    rw [h] at hnext
    cases hnext
  · next hnext =>
    rw [h] at hnext
    cases hnext
    rfl

/-- All that a lexer gives are tokens, none of them the end token, and then the end token or an
error. -/
theorem drain_eq (h : l.finished = false) :
    ∃ (ts : List Token) (last : Except LexError Token), l.drain.1 = ts.map .ok ++ [last] ∧
      .eof ∉ ts ∧ (last = .ok .eof ∨ ∃ e, last = .error e) := by
  induction hn : l.budget using Nat.strong_induction_on generalizing l with
  | h n ih =>
    subst hn
    rcases next_cases h with ⟨r, l', hnext, hfinished, hr⟩ | ⟨t, l', hnext, hfinished, ht⟩
    · refine ⟨[], r, ?_, by simp, hr⟩
      rw [drain_of_next hnext, drain_of_finished hfinished]
      rfl
    · obtain ⟨ts, last, hdrain, hts, hlast⟩ := ih _ (budget_next_lt hnext) hfinished rfl
      refine ⟨t :: ts, last, ?_, by simp [hts, Ne.symm ht], hlast⟩
      rw [drain_of_next hnext, hdrain]
      rfl

end Lexer

/-- Results without an error are the list of their tokens. -/
theorem mapM_id_ok (ts : List Token) :
    (ts.map fun t => (.ok t : Except LexError Token)).mapM id = .ok ts := by
  induction ts with
  | nil => rfl
  | cons t ts ih =>
    rw [List.map_cons, List.mapM_cons, ih]
    rfl

/-- The last result decides: it is one more token, or the error of them all. -/
theorem mapM_id_concat (ts : List Token) (last : Except LexError Token) :
    (ts.map Except.ok ++ [last]).mapM id = last.map fun t => ts ++ [t] := by
  rw [List.mapM_append, mapM_id_ok]
  cases last <;> rfl

/-- The tokens of a text end with the only end token. -/
theorem exists_tokens_eof {source : String} {symbols symbols' : SymbolTable} {tokens : List Token}
    (h : tokenize source symbols = (.ok tokens, symbols')) :
    ∃ ts, tokens = ts ++ [.eof] ∧ .eof ∉ ts := by
  obtain ⟨ts, last, hdrain, hts, hlast⟩ :=
    Lexer.drain_eq (l := Lexer.ofString source symbols) rfl
  have htokens : (ts.map Except.ok ++ [last]).mapM id = (.ok tokens : Except LexError _) := by
    rw [← hdrain]
    exact congrArg Prod.fst h
  rw [mapM_id_concat] at htokens
  rcases hlast with rfl | ⟨e, rfl⟩
  · cases htokens
    exact ⟨ts, rfl, hts⟩
  · cases htokens

end StraightLine
