import Mathlib
import StraightLine.Proofs.SourceText

/-!
# Calling a lexer again and again

A lexer is called for one token at a time, and nothing keeps the caller from going on after the end.
What a single call can do is told by `Lexer.Call`: it reads a token and goes on behind it, it
finishes at the end of the text or in front of a bad character, or it finds that it has finished
before and does nothing. All that is said here of a number of calls comes from that.

The calls give the tokens of the text, one each, then once the end token or the error, and then
nothing any more. Every token takes at least one character off the text that is left. So where the
lexer stands moves forward with every token, always between two characters, and there are no more
tokens than characters.

## Main definitions

* `Lexer.Call` — what one call does
* `Lexer.afterCalls` — the lexer after a number of calls
* `Lexer.cursor` — where in the text a lexer stands

## Main results

* `Lexer.call_next` — a call does one of these things
* `Lexer.getElem?_drain`, `Lexer.afterCalls_drain` — draining a lexer is calling it again and again
* `Lexer.Gives.symbols_afterCalls`, `Lexer.Gives.length_rest_afterCalls` — what the calls for tokens
  leave
* `lexer_protocol` — what any number of calls gives
-/

namespace StraightLine

namespace Lexer

/-! ## One call -/

/-- A call turns one lexer into another and gives a token, an error or nothing. -/
inductive Call : Lexer → Option (Except LexError Token) → Lexer → Prop where
  /-- The lexer had finished. -/
  | nothing {l : Lexer} (finished : l.finished = true) : Call l none l
  /-- Only blanks were left. -/
  | eof {l : Lexer} (working : l.finished = false) (blank : ∀ c ∈ l.rest, isBlank c = true) :
      Call l (some (.ok .eof)) { l with rest := [], finished := true }
  /-- Behind blanks stands a character that begins no token. -/
  | error {l : Lexer} {blanks cs : List Char} {c : Char} (working : l.finished = false)
      (text : l.rest = blanks ++ c :: cs) (blank : ∀ d ∈ blanks, isBlank d = true)
      (bad : isSourceChar c = false) :
      Call l (some (.error (.badChar c))) { l with rest := c :: cs, finished := true }
  /-- Behind blanks stands a token. -/
  | token {l : Lexer} {blanks cs : List Char} {t : Token} (working : l.finished = false)
      (text : l.rest = blanks ++ t.spelling.toList ++ cs) (blank : ∀ d ∈ blanks, isBlank d = true)
      (spelled : t.WellSpelled) (ends : t.EndsBefore cs) :
      Call l (some (.ok t)) { l with rest := cs, symbols := l.symbols.addToken t }

/-- **What a call does.** -/
theorem call_next (l : Lexer) : Call l l.next.1 l.next.2 := by
  have htext : l.rest.takeWhile isBlank ++ l.rest.dropWhile isBlank = l.rest :=
    List.takeWhile_append_dropWhile
  have hblank : ∀ c ∈ l.rest.takeWhile isBlank, isBlank c = true := fun c hc =>
    List.mem_takeWhile_imp hc
  cases hfinished : l.finished with
  | true =>
    rw [next_of_finished hfinished]
    exact .nothing hfinished
  | false =>
    rw [next, if_neg (by simp [hfinished])]
    cases hdrop : l.rest.dropWhile isBlank with
    | nil => exact .eof hfinished (List.dropWhile_eq_nil_iff.mp hdrop)
    | cons c cs =>
      have hc : isBlank c = false := by
        have hhead := List.head?_dropWhile_not isBlank l.rest
        rwa [hdrop] at hhead
      rw [hdrop] at htext
      cases hlexeme : lexeme c cs with
      | error e =>
        obtain ⟨rfl, hbad⟩ := lexeme_eq_error hlexeme hc
        simp only [hlexeme]
        exact .error hfinished htext.symm hblank hbad
      | ok result =>
        obtain ⟨t, rest⟩ := result
        obtain ⟨hspelled, hchars, hends⟩ := lexeme_eq_ok_iff.mp hlexeme
        rw [hchars, ← List.append_assoc] at htext
        simp only [hlexeme]
        exact .token hfinished htext.symm hblank hspelled hends

namespace Call

variable {l l' : Lexer} {r : Option (Except LexError Token)} {t : Token}

/-- A call only takes from the front of the text. -/
theorem suffix (h : Call l r l') : l'.rest <:+ l.rest := by
  cases h with
  | nothing _ => exact List.suffix_refl _
  | eof _ _ => exact List.nil_suffix
  | error _ text _ _ =>
    rw [text]
    exact List.suffix_append _ _
  | token _ text _ _ _ =>
    rw [text]
    exact List.suffix_append _ _

/-- A call that gives a token takes at least its first character. -/
theorem length_rest_lt (h : Call l r l') (hr : r = some (.ok t)) (ht : t ≠ .eof) :
    l'.rest.length < l.rest.length := by
  cases h with
  | nothing _ => cases hr
  | eof _ _ =>
    cases hr
    exact absurd rfl ht
  | error _ _ _ _ => cases hr
  | token _ text _ spelled _ =>
    obtain ⟨c, cs, hchars, -⟩ := spelled.exists_cons
    simp only [text, hchars, List.length_append, List.length_cons]
    omega

/-- A token is entered in the table if it is a name. -/
theorem symbols_of_token (h : Call l r l') (hr : r = some (.ok t)) :
    l'.symbols = l.symbols.addToken t := by
  cases h with
  | nothing _ => cases hr
  | eof _ _ =>
    cases hr
    rfl
  | error _ _ _ _ => cases hr
  | token _ _ _ _ _ =>
    cases hr
    rfl

/-- Without a token the table stays as it is. -/
theorem symbols_of_not_token (h : Call l r l') (hr : ∀ t, r = some (.ok t) → t = .eof) :
    l'.symbols = l.symbols := by
  cases h with
  | nothing _ => rfl
  | eof _ _ => rfl
  | error _ _ _ _ => rfl
  | token _ _ _ spelled _ =>
    obtain rfl := hr _ rfl
    exact spelled.elim

/-- The end token says that nothing is left, and an error that something is. -/
theorem rest_eq_nil_iff (h : Call l r l') {last : Except LexError Token} (hr : r = some last)
    (hlast : last = .ok .eof ∨ ∃ e, last = .error e) : last = .ok .eof ↔ l'.rest = [] := by
  cases h with
  | nothing _ => cases hr
  | eof _ _ =>
    cases hr
    simp
  | error _ _ _ _ =>
    cases hr
    simp
  | token _ _ _ spelled _ =>
    cases hr
    rcases hlast with heof | ⟨e, he⟩
    · cases heof
      exact spelled.elim
    · cases he

end Call

/-! ## Many calls -/

/-- The lexer after `n` calls. -/
def afterCalls (l : Lexer) (n : Nat) : Lexer :=
  (fun l => l.next.2)^[n] l

@[simp] theorem afterCalls_zero (l : Lexer) : l.afterCalls 0 = l :=
  rfl

theorem afterCalls_succ (l : Lexer) (n : Nat) : l.afterCalls (n + 1) = (l.afterCalls n).next.2 :=
  Function.iterate_succ_apply' _ n l

/-- The first call of all comes before the others. -/
theorem afterCalls_next {l l' : Lexer} {r : Option (Except LexError Token)} (h : l.next = (r, l'))
    (n : Nat) : l.afterCalls (n + 1) = l'.afterCalls n := by
  rw [afterCalls, Function.iterate_succ_apply, h]
  rfl

theorem afterCalls_of_finished {l : Lexer} (h : l.finished = true) (n : Nat) :
    l.afterCalls n = l := by
  induction n with
  | zero => rfl
  | succ n ih => rw [afterCalls_succ, ih, next_of_finished h]

/-- One more call. -/
theorem call_afterCalls (l : Lexer) (n : Nat) :
    Call (l.afterCalls n) (l.afterCalls n).next.1 (l.afterCalls (n + 1)) := by
  rw [afterCalls_succ]
  exact call_next _

theorem suffix_afterCalls (l : Lexer) (n : Nat) : (l.afterCalls n).rest <:+ l.rest := by
  induction n with
  | zero => exact List.suffix_refl _
  | succ n ih => exact (call_afterCalls l n).suffix.trans ih

theorem exists_next {l : Lexer} (h : l.finished = false) : ∃ r l', l.next = (some r, l') := by
  rcases next_cases h with ⟨r, l', hnext, -⟩ | ⟨t, l', hnext, -⟩
  · exact ⟨r, l', hnext⟩
  · exact ⟨.ok t, l', hnext⟩

/-- **Draining a lexer gives what its calls give**, one after another. -/
theorem getElem?_drain (l : Lexer) (n : Nat) : l.drain.1[n]? = (l.afterCalls n).next.1 := by
  induction n generalizing l with
  | zero =>
    cases hfinished : l.finished with
    | true => simp [drain_of_finished hfinished, next_of_finished hfinished]
    | false =>
      obtain ⟨r, l', hnext⟩ := exists_next hfinished
      simp [drain_of_next hnext, hnext]
  | succ n ih =>
    cases hfinished : l.finished with
    | true =>
      rw [drain_of_finished hfinished, afterCalls_of_finished hfinished, next_of_finished hfinished]
      rfl
    | false =>
      obtain ⟨r, l', hnext⟩ := exists_next hfinished
      rw [drain_of_next hnext, List.getElem?_cons_succ, ih, afterCalls_next hnext]

/-- Draining leaves the lexer as it is after the last call that gave something. -/
theorem afterCalls_drain (l : Lexer) : l.afterCalls l.drain.1.length = l.drain.2 := by
  induction hn : l.budget using Nat.strong_induction_on generalizing l with
  | h n ih =>
    subst hn
    cases hfinished : l.finished with
    | true => rw [drain_of_finished hfinished, afterCalls_of_finished hfinished]
    | false =>
      obtain ⟨r, l', hnext⟩ := exists_next hfinished
      rw [drain_of_next hnext, List.length_cons, afterCalls_next hnext]
      exact ih _ (budget_next_lt hnext) l' rfl

/-! ## The tokens and what ends them -/

/-- The calls of the lexer give the tokens `ts`, then once `last`, then nothing. -/
structure Gives (l : Lexer) (ts : List Token) (last : Except LexError Token) : Prop where
  /-- The end token is not among the tokens. -/
  eof_not_mem : .eof ∉ ts
  /-- The end token or an error ends them. -/
  ends : last = .ok .eof ∨ ∃ e, last = .error e
  /-- Every call has its place. -/
  calls : ∀ n, (l.afterCalls n).next.1 = (ts.map .ok ++ [last])[n]?

theorem exists_gives {l : Lexer} (h : l.finished = false) :
    ∃ ts last, l.Gives ts last ∧ l.drain.1 = ts.map .ok ++ [last] := by
  obtain ⟨ts, last, hdrain, hts, hlast⟩ := drain_eq h
  refine ⟨ts, last, ⟨hts, hlast, fun n => ?_⟩, hdrain⟩
  rw [← getElem?_drain, hdrain]

namespace Gives

variable {l : Lexer} {ts : List Token} {last : Except LexError Token} {n : Nat} {t : Token}

theorem call_of_getElem? (h : l.Gives ts last) (ht : ts[n]? = some t) :
    (l.afterCalls n).next.1 = some (.ok t) := by
  obtain ⟨hn, -⟩ := List.getElem?_eq_some_iff.mp ht
  rw [h.calls, List.getElem?_append_left (by simpa using hn), List.getElem?_map, ht]
  rfl

theorem call_length (h : l.Gives ts last) : (l.afterCalls ts.length).next.1 = some last := by
  rw [h.calls, List.getElem?_append_right (by simp)]
  simp

/-- A call that gives a token is one of the first. -/
theorem getElem?_of_call (h : l.Gives ts last) (hcall : (l.afterCalls n).next.1 = some (.ok t))
    (ht : t ≠ .eof) : ts[n]? = some t := by
  rw [h.calls, List.getElem?_append] at hcall
  split at hcall
  · simpa using hcall
  · have hlast : last = .ok t := by
      have hmem := List.mem_of_getElem? hcall
      exact (List.mem_singleton.mp hmem).symm
    rcases h.ends with heof | ⟨e, he⟩
    · rw [heof] at hlast
      exact absurd (Except.ok.inj hlast).symm ht
    · rw [he] at hlast
      cases hlast

/-- **The table after a number of calls** has the names of the tokens that they gave. -/
theorem symbols_afterCalls (h : l.Gives ts last) (n : Nat) :
    (l.afterCalls n).symbols = (ts.take n).foldl SymbolTable.addToken l.symbols := by
  induction n with
  | zero => rfl
  | succ n ih =>
    have hcall := call_afterCalls l n
    rw [List.take_add_one, List.foldl_append, ← ih]
    cases ht : ts[n]? with
    | some t => exact hcall.symbols_of_token (h.call_of_getElem? ht)
    | none =>
      refine hcall.symbols_of_not_token fun t hnext => ?_
      by_contra hne
      rw [h.getElem?_of_call hnext hne] at ht
      cases ht

/-- Every call for a token takes at least one character. -/
theorem length_rest_afterCalls (h : l.Gives ts last) (hn : n ≤ ts.length) :
    (l.afterCalls n).rest.length + n ≤ l.rest.length := by
  induction n with
  | zero => simp
  | succ n ih =>
    have ht : ts[n]? = some ts[n] := List.getElem?_eq_getElem hn
    have hne : ts[n] ≠ .eof := fun heq => h.eof_not_mem (heq ▸ List.getElem_mem hn)
    have hlt := (call_afterCalls l n).length_rest_lt (h.call_of_getElem? ht) hne
    have hle := ih (Nat.le_of_succ_le hn)
    omega

end Gives

/-! ## Where a lexer stands -/

/-- The position in a text, in bytes, from which on a lexer has it still before it. -/
def cursor (source : String) (l : Lexer) : String.Pos.Raw :=
  ⟨source.utf8ByteSize - (String.ofList l.rest).utf8ByteSize⟩

section Cursor

variable {source : String} {l l' : Lexer}

theorem utf8ByteSize_eq_of_append {used : List Char} (h : used ++ l.rest = source.toList) :
    source.utf8ByteSize =
      (String.ofList used).utf8ByteSize + (String.ofList l.rest).utf8ByteSize := by
  rw [← String.utf8ByteSize_append, ← String.ofList_append, h, String.ofList_toList]

/-- A lexer stands between two characters of its text. -/
theorem isValid_cursor (h : l.rest <:+ source.toList) : (l.cursor source).IsValid source := by
  obtain ⟨used, hused⟩ := h
  rw [String.Pos.Raw.isValid_iff_exists_append]
  refine ⟨String.ofList used, String.ofList l.rest, ?_, ?_⟩
  · rw [← String.ofList_append, hused, String.ofList_toList]
  · rw [cursor, utf8ByteSize_eq_of_append hused, Nat.add_sub_cancel]
    rfl

/-- A lexer that has taken a character stands further behind. -/
theorem cursor_lt (h : l.rest <:+ source.toList) (h' : l'.rest <:+ l.rest)
    (hlt : l'.rest.length < l.rest.length) : l.cursor source < l'.cursor source := by
  obtain ⟨used, hused⟩ := h
  obtain ⟨taken, htaken⟩ := h'
  have hsource := utf8ByteSize_eq_of_append hused
  have hrest : (String.ofList l.rest).utf8ByteSize =
      (String.ofList taken).utf8ByteSize + (String.ofList l'.rest).utf8ByteSize := by
    rw [← htaken, String.ofList_append, String.utf8ByteSize_append]
  have hpos : (String.ofList taken).utf8ByteSize ≠ 0 := by
    intro hzero
    have hnil : taken = [] := by simpa using String.utf8ByteSize_eq_zero_iff.mp hzero
    rw [← htaken, hnil] at hlt
    exact absurd hlt (Nat.lt_irrefl _)
  rw [String.Pos.Raw.lt_iff]
  simp only [cursor]
  omega

/-- A lexer stands at the end of its text when nothing is left. -/
theorem cursor_eq_rawEndPos_iff (h : l.rest <:+ source.toList) :
    l.cursor source = source.rawEndPos ↔ l.rest = [] := by
  obtain ⟨used, hused⟩ := h
  have hsource := utf8ByteSize_eq_of_append hused
  have hzero : (String.ofList l.rest).utf8ByteSize = 0 ↔ l.rest = [] := by
    rw [String.utf8ByteSize_eq_zero_iff]
    simp
  rw [← hzero, String.Pos.Raw.ext_iff]
  simp only [cursor, String.rawEndPos]
  omega

end Cursor

end Lexer

/-- The lexer of a text after `n` calls. -/
def lexerAfter (source : String) (given : SymbolTable) (n : Nat) : Lexer :=
  (Lexer.ofString source given).afterCalls n

/-- **The protocol of a lexer.** For every text and every table to begin with, there are tokens, none
of them the end token, and behind them the end token or an error, so that any number of calls gives
these in order and nothing more; it is the end token exactly if the whole text has been used up.
After any number of calls a back part of the text is left and the lexer stands between two
characters. Every call that gives a token other than the end token moves it forward, so there are at
most as many tokens as characters. The calls together make up what is read of the whole text. After
each of them the table has what it had, and without a type the names of the tokens given so far. -/
theorem lexer_protocol (source : String) (given : SymbolTable) :
    ∃ (ts : List Token) (last : Except LexError Token),
      .eof ∉ ts ∧ (last = .ok .eof ∨ ∃ e, last = .error e) ∧
      (∀ n, (lexerAfter source given n).next.1 = (ts.map .ok ++ [last])[n]?) ∧
      (last = .ok .eof ↔
        (lexerAfter source given (ts.length + 1)).cursor source = source.rawEndPos) ∧
      (∀ n, (lexerAfter source given n).rest <:+ source.toList ∧
        ((lexerAfter source given n).cursor source).IsValid source) ∧
      (∀ n t, (lexerAfter source given n).next.1 = some (.ok t) → t ≠ .eof →
        (lexerAfter source given n).cursor source <
          (lexerAfter source given (n + 1)).cursor source) ∧
      ts.length ≤ source.length ∧
      (Scan.ofString source given).results = ts.map .ok ++ [last] ∧
      tokenize source given =
        (last.map fun t => ts ++ [t], (lexerAfter source given (ts.length + 1)).symbols) ∧
      ∀ n x, (lexerAfter source given n).symbols.find? x =
        (given.find? x).or (if .ident x ∈ ts.take n then some none else none) := by
  have hsuffix := (Lexer.ofString source given).suffix_afterCalls
  obtain ⟨ts, last, hgives, hdrain⟩ :=
    Lexer.exists_gives (l := Lexer.ofString source given) rfl
  refine ⟨ts, last, hgives.eof_not_mem, hgives.ends, hgives.calls, ?_,
    fun n => ⟨hsuffix n, Lexer.isValid_cursor (hsuffix n)⟩, fun n t hcall ht => ?_, ?_, hdrain, ?_,
    fun n x => ?_⟩
  · rw [lexerAfter, Lexer.cursor_eq_rawEndPos_iff (hsuffix _)]
    exact (Lexer.call_afterCalls _ ts.length).rest_eq_nil_iff hgives.call_length hgives.ends
  · have hstep := Lexer.call_afterCalls (Lexer.ofString source given) n
    exact Lexer.cursor_lt (hsuffix n) hstep.suffix (hstep.length_rest_lt hcall ht)
  · have hlength := hgives.length_rest_afterCalls (Nat.le_refl _)
    have hsource : (Lexer.ofString source given).rest.length = source.length :=
      String.length_toList
    omega
  · have hlast := Lexer.afterCalls_drain (Lexer.ofString source given)
    rw [hdrain, List.length_append, List.length_map, List.length_singleton] at hlast
    rw [tokenize, Scan.ofString, Scan.tokens, lexerAfter, hlast, ← mapM_id_concat, ← hdrain]
  · rw [lexerAfter, hgives.symbols_afterCalls, find?_foldl_addToken]
    rfl

-- a letter of two bytes, and then a character that begins no token
example : (lexerAfter "é #" .empty 1).cursor "é #" = ⟨2⟩ ∧
    (lexerAfter "é #" .empty 1).next.1 = some (.error (.badChar '#')) ∧
    (lexerAfter "é #" .empty 2).next.1 = none := by
  decide +kernel

end StraightLine
