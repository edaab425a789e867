import Mathlib
import StraightLine.Proofs.Spelling
import StraightLine.Proofs.SymbolTable
import StraightLine.Text.Decimal

/-!
# What reading a text does

A text has tokens exactly if every character of it can stand in a program: a letter, a digit, a
blank or one of the eight signs. Otherwise the first character that cannot is the error, wherever it
stands: no token runs over it, and no token before it fails.

Reading a text enters its names. If a bad character stops the lexer, it has entered the names in
front of that character, and these are the names of the text that is cut off just before it:
whatever token the lexer is in when it meets the bad character, it ends that token as it would at
the end of the text. A name that is already in the table is left alone, with its type, and keywords
are never entered.

The tokens that come out are well made: a literal has digits only, so it denotes a number.

## Main definitions

* `goodFront` — a text up to its first bad character

## Main results

* `find?_foldl_addToken` — what entering the names of tokens does to a table
* `exists_lexes_goodFront` — the tokens in front of the first bad character
* `tokenize_spec` — the tokens of a text, or its first bad character
* `tokenize_effect` — the outcome of reading a text, and the table afterwards
-/

namespace StraightLine

/-! ## Numerals -/

/-- A literal denotes a number, which is not negative. -/
def Token.IsNumeral : Token → Prop
  | .literal text => ∃ n : Nat, Decimal.toInt? text = some (n : Int)
  | _ => True

/-- A row of digits is a numeral. -/
theorem exists_toInt?_of_digits {cs : List Char} (hne : cs ≠ [])
    (hcs : ∀ c ∈ cs, c.isDigit = true) :
    ∃ n : Nat, Decimal.toInt? (String.ofList cs) = some (n : Int) := by
  have hall : cs.all Char.isDigit = true := List.all_eq_true.mpr hcs
  have hvalue : Decimal.digitsValue? cs = some (Nat.ofDigitChars 10 cs 0) :=
    if_pos ⟨hne, hall⟩
  refine ⟨Nat.ofDigitChars 10 cs 0, ?_⟩
  rw [Decimal.toInt?, String.toList_ofList, Decimal.signedValue?.eq_def]
  split
  · -- no digit is a sign
    simp [Char.isDigit] at hcs
  · simp [Char.isDigit] at hcs
  · rw [hvalue]
    rfl

theorem Token.WellSpelled.isNumeral {t : Token} (h : t.WellSpelled) : t.IsNumeral := by
  cases t with
  | literal text =>
    obtain ⟨n, hn⟩ := exists_toInt?_of_digits h.1 h.2
    rw [String.ofList_toList] at hn
    exact ⟨n, hn⟩
  | _ => trivial

/-! ## Entering the names of tokens -/

theorem find?_addToken (s : SymbolTable) (t : Token) (x : String) :
    (s.addToken t).find? x = (s.find? x).or (if .ident x = t then some none else none) := by
  cases t with
  | ident y => simp [SymbolTable.addToken, SymbolTable.find?_add]
  | _ => simp [SymbolTable.addToken]

/-- Names of tokens are entered without a type where they are missing. -/
theorem find?_foldl_addToken (ts : List Token) (s : SymbolTable) (x : String) :
    (ts.foldl SymbolTable.addToken s).find? x =
      (s.find? x).or (if .ident x ∈ ts then some none else none) := by
  induction ts generalizing s with
  | nil => simp
  | cons t ts ih =>
    rw [List.foldl_cons, ih, find?_addToken, Option.or_assoc]
    by_cases ht : .ident x = t
    · simp [ht]
    · simp [ht]

/-- Every name of the tokens is in the table. -/
theorem contains_foldl_addToken {x : String} {ts : List Token} (s : SymbolTable)
    (h : .ident x ∈ ts) : (ts.foldl SymbolTable.addToken s).contains x = true := by
  rw [SymbolTable.contains, find?_foldl_addToken, if_pos h, Option.isSome_or]
  simp

/-! ## The tokens in front of a bad character -/

/-- A text up to its first character that cannot stand in a program. -/
def goodFront (source : String) : String :=
  String.ofList (source.toList.takeWhile isSourceChar)

/-- A character that cannot stand in a program extends no token. -/
theorem Token.isExtendedBy_of_not_source (t : Token) {c : Char} (h : isSourceChar c = false) :
    t.isExtendedBy c = false := by
  rw [Bool.eq_false_iff]
  intro hextended
  rcases isExtendedBy_cases hextended with hword | rfl | rfl
  · rw [isSourceChar_of_isWordChar hword] at h
    cases h
  · cases h
  · cases h

/-- What is left of a text behind its good front begins with a bad character. -/
theorem not_source_of_mem_head? (cs : List Char) :
    ∀ c ∈ (cs.dropWhile isSourceChar).head?, isSourceChar c = false := by
  intro c hc
  have hhead := List.head?_dropWhile_not isSourceChar cs
  rwa [Option.mem_def.mp hc] at hhead

/-- **The tokens in front of the first bad character** are the tokens of the good front. -/
theorem exists_lexes_goodFront (source : String) :
    ∃ ts blanks, Lexes (goodFront source).toList ts blanks ∧ (∀ c ∈ blanks, isBlank c = true) ∧
      Lexes source.toList ts (blanks ++ source.toList.dropWhile isSourceChar) ∧
      Spent (blanks ++ source.toList.dropWhile isSourceChar) := by
  have hgood : ∀ c ∈ (goodFront source).toList, isSourceChar c = true := by
    rw [goodFront, String.toList_ofList]
    exact fun c hc => List.mem_takeWhile_imp hc
  obtain ⟨ts, blanks, hlexes, hspent⟩ := exists_lexes (goodFront source).toList
  have hblank : ∀ c ∈ blanks, isBlank c = true :=
    blank_of_spent hspent fun c hc => hgood c (hlexes.suffix.subset hc)
  have hwhole := hlexes.append fun _ t _ c hc =>
    t.isExtendedBy_of_not_source (not_source_of_mem_head? source.toList c hc)
  rw [goodFront, String.toList_ofList, List.takeWhile_append_dropWhile] at hwhole
  refine ⟨ts, blanks, hlexes, hblank, hwhole, ?_⟩
  rw [Spent, List.dropWhile_append_of_pos hblank]
  cases hrest : source.toList.dropWhile isSourceChar with
  | nil => simp
  | cons c cs =>
    have hbad : isSourceChar c = false := not_source_of_mem_head? _ c (by rw [hrest]; rfl)
    have hc : ¬ isBlank c = true := by
      intro hblank
      rw [isSourceChar_of_isBlank hblank] at hbad
      cases hbad
    rw [List.dropWhile_cons_of_neg hc]
    rintro _ ⟨rfl⟩
    exact hbad

/-- Behind the good front and its blanks the text ends as the whole text does. -/
theorem lexicalEnd_behind_goodFront {blanks : List Char} (h : ∀ c ∈ blanks, isBlank c = true)
    (cs : List Char) : lexicalEnd (blanks ++ cs.dropWhile isSourceChar) = lexicalEnd cs := by
  rw [lexicalEnd_append fun c hc => isSourceChar_of_isBlank (h c hc)]
  conv_rhs => rw [← List.takeWhile_append_dropWhile (p := isSourceChar) (l := cs)]
  exact (lexicalEnd_append (fun c hc => List.mem_takeWhile_imp hc) _).symm

/-! ## Success and failure -/

/-- **The tokens of a text.** A text in which every character can stand in a program has tokens; its
names are in the table, its literals are numerals, and the end token is the last one. Of another
text, the first bad character is the error. -/
theorem tokenize_spec (source : String) (given : SymbolTable) :
    (source.toList.find? (!isSourceChar ·) = none → ∃ ts,
      (tokenize source given).1 = .ok (ts ++ [.eof]) ∧ .eof ∉ ts ∧ (∀ t ∈ ts, t.IsNumeral) ∧
        ∀ x, .ident x ∈ ts → (tokenize source given).2.contains x = true) ∧
    ∀ c, source.toList.find? (!isSourceChar ·) = some c →
      (tokenize source given).1 = .error (.badChar c) := by
  obtain ⟨ts, blanks, -, hblank, hwhole, hspent⟩ := exists_lexes_goodFront source
  have hspelled := hwhole.wellSpelled
  rw [tokenize_of_lexes hwhole hspent, lexicalEnd_behind_goodFront hblank, lexicalEnd]
  refine ⟨fun hnone => ?_, fun c hc => ?_⟩
  · rw [hnone]
    exact ⟨ts, rfl, fun heof => hspelled _ heof, fun t ht => (hspelled t ht).isNumeral,
      fun x hx => contains_foldl_addToken given hx⟩
  · rw [hc]
    rfl

/-- The tokens of a text that has been read are those that the text is spelled with, and the table
behind it is made by their names. -/
theorem exists_lexes_of_tokenize {source : String} {given : SymbolTable} {tokens : List Token}
    (h : (tokenize source given).1 = .ok tokens) :
    ∃ ts rest, tokens = ts ++ [.eof] ∧ Lexes source.toList ts rest ∧
      (tokenize source given).2 = ts.foldl SymbolTable.addToken given := by
  obtain ⟨ts, rest, hlexes, hspent⟩ := exists_lexes source.toList
  rw [tokenize_of_lexes hlexes hspent] at h ⊢
  cases hend : lexicalEnd rest with
  | error e =>
    rw [hend] at h
    cases h
  | ok last =>
    obtain ⟨rfl, -⟩ := lexicalEnd_eq_ok_iff.mp hend
    rw [hend] at h
    exact ⟨ts, rest, (Except.ok.inj h).symm, hlexes, rfl⟩

/-- The table behind a text that has been read has the names of its tokens. -/
theorem find?_tokenize {source : String} {given : SymbolTable} {tokens : List Token}
    (h : (tokenize source given).1 = .ok tokens) (x : String) :
    (tokenize source given).2.find? x =
      (given.find? x).or (if .ident x ∈ tokens then some none else none) := by
  obtain ⟨ts, rest, rfl, -, htable⟩ := exists_lexes_of_tokenize h
  rw [htable, find?_foldl_addToken]
  simp

section Outcome

variable (source : String) (given : SymbolTable)

theorem exists_tokenize_eq_ok_iff :
    (∃ tokens, (tokenize source given).1 = .ok tokens) ↔
      ∀ c ∈ source.toList, isSourceChar c = true := by
  obtain ⟨hok, hbad⟩ := tokenize_spec source given
  cases hfind : source.toList.find? (!isSourceChar ·) with
  | none =>
    obtain ⟨ts, htokens, -⟩ := hok hfind
    exact iff_of_true ⟨_, htokens⟩ (by simpa using hfind)
  | some c =>
    have hc := List.find?_some hfind
    refine iff_of_false (by simp [hbad c hfind]) fun hgood => ?_
    simp [hgood c (List.mem_of_find?_eq_some hfind)] at hc

theorem tokenize_eq_error_iff (e : LexError) :
    (tokenize source given).1 = .error e ↔
      ∃ c, e = .badChar c ∧ source.toList.find? (!isSourceChar ·) = some c := by
  obtain ⟨hok, hbad⟩ := tokenize_spec source given
  cases hfind : source.toList.find? (!isSourceChar ·) with
  | none =>
    obtain ⟨ts, htokens, -⟩ := hok hfind
    simp [htokens]
  | some c =>
    rw [hbad c hfind, Except.error.injEq, eq_comm]
    simp

end Outcome

/-- **What reading a text does.** It succeeds exactly if every character can stand in a program, and
otherwise the first bad character is the error. Either way the table has, afterwards, what it had,
and without a type the names that it did not have of the text up to the first bad character. So no
type is lost, and no keyword is entered. -/
theorem tokenize_effect (source : String) (given : SymbolTable) :
    ((∃ tokens, (tokenize source given).1 = .ok tokens) ↔
      ∀ c ∈ source.toList, isSourceChar c = true) ∧
    (∀ e, (tokenize source given).1 = .error e ↔
      ∃ c, e = .badChar c ∧ source.toList.find? (!isSourceChar ·) = some c) ∧
    (∃ ts, (∀ other, (tokenize (goodFront source) other).1 = .ok (ts ++ [.eof])) ∧
      ∀ x, (tokenize source given).2.find? x =
        (given.find? x).or (if .ident x ∈ ts then some none else none)) ∧
    (∀ x type, given.find? x = some type → (tokenize source given).2.find? x = some type) ∧
    ∀ k : Keyword, (tokenize source given).2.find? k.spelling = given.find? k.spelling := by
  obtain ⟨ts, blanks, hfront, hblank, hwhole, hspent⟩ := exists_lexes_goodFront source
  have htable : ∀ x, (tokenize source given).2.find? x =
      (given.find? x).or (if .ident x ∈ ts then some none else none) := by
    intro x
    rw [tokenize_of_lexes hwhole hspent, find?_foldl_addToken]
  refine ⟨exists_tokenize_eq_ok_iff source given, tokenize_eq_error_iff source given,
    ⟨ts, fun other => ?_, htable⟩, fun x type hx => ?_, fun k => ?_⟩
  · rw [tokenize_of_lexes hfront (spent_of_blank hblank), lexicalEnd_of_blank hblank]
    rfl
  · rw [htable, hx]
    rfl
  · have hkeyword : .ident k.spelling ∉ ts := fun hmem => (hwhole.wellSpelled _ hmem).2 k rfl
    rw [htable, if_neg hkeyword, Option.or_none]

end StraightLine
