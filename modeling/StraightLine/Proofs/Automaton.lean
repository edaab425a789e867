import Mathlib
import StraightLine.Proofs.Spelling
import StraightLine.Token.Automaton

/-!
# The automaton finds the longest token

A run of the automaton from the start is compared with `lexeme`, which takes the longest token at
once. The two states that repeat themselves read on as long as the characters are of their kind, so
they read what `takeWhile` takes. The others see at most one more character.

## Main results

* `Automaton.State.run_of_repeats` — what a state that repeats itself reads
* `Automaton.run_start_blank`, `Automaton.run_start_lexeme` — a run from the start passes one blank
  or takes the longest token
* `Lexer.nextScanned_eq_next` — run by run, a lexer gives what it gives token by token
-/

namespace StraightLine

namespace Automaton

/-- A class with what it says about a character. -/
inductive Class.Of (c : Char) : Prop where
  | letter (cls : of c = letter) (letter : isLetter c = true)
  | digit (cls : of c = digit) (letter : isLetter c = false) (digit : c.isDigit = true)
  | blank (cls : of c = blank) (letter : isLetter c = false) (digit : c.isDigit = false)
      (blank : isBlank c = true)
  | other (cls : of c = other c) (letter : isLetter c = false) (digit : c.isDigit = false)
      (blank : isBlank c = false)

theorem Class.of_spec (c : Char) : Class.Of c := by
  by_cases hletter : isLetter c = true
  · exact .letter (if_pos hletter) hletter
  · by_cases hdigit : c.isDigit = true
    · exact .digit (by simp [of, hletter, hdigit]) (by simpa using hletter) hdigit
    · by_cases hblank : isBlank c = true
      · exact .blank (by simp [of, hletter, hdigit, hblank]) (by simpa using hletter)
          (by simpa using hdigit) hblank
      · exact .other (by simp [of, hletter, hdigit, hblank]) (by simpa using hletter)
          (by simpa using hdigit) (by simpa using hblank)

namespace State

/-- A state that repeats itself on some characters, and at any other is at the end of a lexeme
before it, reads all of them. -/
theorem run_of_repeats {q q' : State} {p : Char → Bool} (hq : q.isFinal = false)
    (hq' : q'.isFinal = true) (hretracts : q'.retracts = true)
    (hstep : ∀ c, q.step (.of c) = some (if p c then q else q'))
    (hended : q.step .ended = some q') (read cs : List Char) :
    q.run read cs =
      .ok (q'.token? (String.ofList (read ++ cs.takeWhile p)), cs.dropWhile p) := by
  induction cs generalizing read with
  | nil =>
    rw [run, hended]
    simp
  | cons c cs ih =>
    rw [run, hstep]
    by_cases hc : p c = true
    · simp [hc, hq, ih]
    · simp [hc, hq', hretracts]

/-- A state behind a sign that may be doubled reads one more character if it is the same sign. -/
theorem run_of_doubles {q single double : State} {d : Char} (hsingle : single.isFinal = true)
    (hretracts : single.retracts = true) (hdouble : double.isFinal = true)
    (hkeeps : double.retracts = false)
    (hstep : ∀ c, q.step (.of c) = some (if c = d then double else single))
    (hended : q.step .ended = some single) (read cs : List Char) :
    q.run read cs =
      if cs.head? = some d then .ok (double.token? (String.ofList (read ++ [d])), cs.tail)
      else .ok (single.token? (String.ofList read), cs) := by
  cases cs with
  | nil =>
    rw [run, hended]
    rfl
  | cons c cs =>
    rw [run, hstep]
    by_cases hc : c = d
    · simp [hc, hdouble, hkeeps]
    · simp [hc, hsingle, hretracts]

theorem step_word (c : Char) :
    word.step (.of c) = some (if isWordChar c then word else wordEnd) := by
  cases Class.of_spec c with
  | letter hclass hletter =>
    rw [hclass, isWordChar, hletter]
    rfl
  | digit hclass hletter hdigit =>
    rw [hclass, isWordChar, hletter, hdigit]
    rfl
  | blank hclass hletter hdigit | other hclass hletter hdigit =>
    rw [hclass, isWordChar, hletter, hdigit]
    rfl

theorem step_integer (c : Char) :
    integer.step (.of c) = some (if c.isDigit then integer else integerEnd) := by
  cases Class.of_spec c with
  | letter hclass hletter =>
    have hdigit : c.isDigit = false := by
      rw [Bool.eq_false_iff]
      intro hdigit
      rw [isLetter_of_isDigit hdigit] at hletter
      cases hletter
    rw [hclass, hdigit]
    rfl
  | digit hclass hletter hdigit | blank hclass hletter hdigit | other hclass hletter hdigit =>
    rw [hclass, hdigit]
    rfl

/-- A state that tells one sign from all other characters sees it in its class. -/
theorem step_of_sign {q single double : State} {d : Char} (hd : Class.of d = .other d)
    (hother : ∀ c, q.step (.other c) = some (if c = d then double else single))
    (hletter : q.step .letter = some single) (hdigit : q.step .digit = some single)
    (hblank : q.step .blank = some single) (c : Char) :
    q.step (.of c) = some (if c = d then double else single) := by
  by_cases hc : c = d
  · rw [hc, hd, hother]
  · rw [if_neg hc]
    cases Class.of_spec c with
    | letter hclass => rw [hclass, hletter]
    | digit hclass => rw [hclass, hdigit]
    | blank hclass => rw [hclass, hblank]
    | other hclass => rw [hclass, hother, if_neg hc]

end State

open State

/-- A run from the start passes one blank. -/
theorem run_start_blank {c : Char} (h : isBlank c = true) (cs : List Char) :
    start.run [] (c :: cs) = .ok (none, cs) := by
  have hword := isWordChar_of_isBlank h
  rw [isWordChar, Bool.or_eq_false_iff] at hword
  rw [run, Class.of, hword.1, hword.2, h]
  rfl

/-- **Longest match.** Where there is no blank, a run from the start takes the longest token. -/
theorem run_start_lexeme {c : Char} (h : isBlank c = false) (cs : List Char) :
    start.run [] (c :: cs) = (lexeme c cs).map fun r => (some r.1, r.2) := by
  unfold lexeme
  cases Class.of_spec c with
  | letter hclass hletter =>
    rw [run, hclass, if_pos hletter]
    exact run_of_repeats rfl rfl rfl step_word rfl [c] cs
  | digit hclass hletter hdigit =>
    rw [run, hclass, hletter, if_neg Bool.false_ne_true, if_pos hdigit]
    exact run_of_repeats rfl rfl rfl step_integer rfl [c] cs
  | blank hclass hletter hdigit hblank =>
    rw [h] at hblank
    cases hblank
  | other hclass hletter hdigit =>
    rw [hletter, hdigit, if_neg Bool.false_ne_true, if_neg Bool.false_ne_true]
    have hstar := run_of_doubles rfl rfl rfl rfl
      (step_of_sign (q := star) (d := '*') rfl (fun _ => rfl) rfl rfl rfl) rfl ['*']
    have hequals := run_of_doubles rfl rfl rfl rfl
      (step_of_sign (q := equals) (d := '=') rfl (fun _ => rfl) rfl rfl rfl) rfl ['=']
    split <;> rw [run, hclass]
    · exact hstar _
    · next hsingle =>
      refine (hstar cs).trans (if_neg fun hhead => ?_)
      obtain ⟨cs', hcs⟩ := List.head?_eq_some_iff.mp hhead
      exact hsingle cs' hcs
    · exact hequals _
    · next hsingle =>
      refine (hequals cs).trans (if_neg fun hhead => ?_)
      obtain ⟨cs', hcs⟩ := List.head?_eq_some_iff.mp hhead
      exact hsingle cs' hcs
    -- the signs that stand alone
    iterate 6 rfl
    · have hnone : start.step (.other c) = none := by
        change ofSign? c = none
        unfold ofSign?
        split <;> first | contradiction | rfl
      rw [hnone]
      rfl

end Automaton

namespace Lexer

variable {c : Char} {cs : List Char} {s : SymbolTable}

theorem next_of_blank (h : isBlank c = true) :
    next ⟨c :: cs, s, false⟩ = next ⟨cs, s, false⟩ := by
  rw [next, next, List.dropWhile_cons_of_pos h]
  rfl

theorem scan_of_blank (h : isBlank c = true) :
    scan ⟨c :: cs, s, false⟩ = (.ok none, ⟨cs, s, false⟩) := by
  rw [scan, Automaton.run_start_blank h]
  rfl

/-- Where there is no blank, one run of the automaton gives what is given next. -/
theorem scan_of_lexeme (h : isBlank c = false) :
    (∃ t l, scan ⟨c :: cs, s, false⟩ = (.ok (some t), l) ∧
      next ⟨c :: cs, s, false⟩ = (some (.ok t), l)) ∨
    ∃ e, scan ⟨c :: cs, s, false⟩ = (.error e, ⟨c :: cs, s, false⟩) ∧
      next ⟨c :: cs, s, false⟩ = (some (.error e), ⟨c :: cs, s, true⟩) := by
  have hdrop : (c :: cs).dropWhile isBlank = c :: cs :=
    List.dropWhile_cons_of_neg (by simp [h])
  rw [scan, next, Automaton.run_start_lexeme h, hdrop]
  dsimp only
  rcases lexeme c cs with e | ⟨t, rest⟩
  · exact .inr ⟨e, rfl, rfl⟩
  · exact .inl ⟨t, _, rfl, rfl⟩

theorem nextScanned_of_cons :
    nextScanned ⟨c :: cs, s, false⟩ =
      if isBlank c then nextScanned ⟨cs, s, false⟩ else next ⟨c :: cs, s, false⟩ := by
  rw [nextScanned, if_neg Bool.false_ne_true, if_neg (List.cons_ne_nil c cs)]
  by_cases hblank : isBlank c = true
  · have hscan := @scan_of_blank c cs s hblank
    rw [if_pos hblank]
    split <;> next h => cases hscan.symm.trans h <;> rfl
  · rw [if_neg hblank]
    rcases @scan_of_lexeme c cs s (Bool.eq_false_iff.mpr hblank) with
      ⟨t, l, hscan, hnext⟩ | ⟨e, hscan, hnext⟩
    · rw [hnext]
      split <;> next h => cases hscan.symm.trans h <;> rfl
    · rw [hnext]
      split <;> next h => cases hscan.symm.trans h <;> rfl

/-- **The automaton is the lexer.** To run the automaton until there is a token, an error or the end
of the text is to pass over all blanks and take the longest token there. -/
theorem nextScanned_eq_next (l : Lexer) : l.nextScanned = l.next := by
  obtain ⟨rest, s, finished⟩ := l
  cases finished with
  | true => rw [nextScanned, next, if_pos rfl, if_pos rfl]
  | false =>
    induction rest with
    | nil =>
      rw [nextScanned]
      rfl
    | cons c cs ih =>
      rw [nextScanned_of_cons]
      split
      · next hblank => rw [ih, next_of_blank hblank]
      · rfl

end Lexer

end StraightLine
