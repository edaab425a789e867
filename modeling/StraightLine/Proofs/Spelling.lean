import Mathlib
import StraightLine.Proofs.Lexing

/-!
# How tokens are spelled

Every token but the end token has a spelling, and a character may extend it: a letter or a digit
extends a word, a digit an integer, an asterisk a single asterisk, an equals sign a single equals
sign. A lexer takes the token whose spelling stands at the front of a text and is not extended by
the character behind it, and there is at most one such token.

So a lexer passes over blanks and spellings until no token begins: at the end of the text, or at a
character that cannot stand in a program. `Lexes` says which tokens it has passed over by then. It
speaks of spellings only, and it has the text behind the tokens in it, since that decides where the
last of them ends.

## Main definitions

* `Token.spelling`, `Token.WellSpelled`, `Token.isExtendedBy` — tokens as texts
* `isSourceChar` — the characters that can stand in a program
* `Lexes` — tokens at the front of a text, with what is left
* `Spent` — no token begins in what is left
* `lexicalEnd` — what a lexer gives at the end of a text or at the character that stops it

## Main results

* `lexeme_eq_ok_iff`, `lexeme_eq_error` — one token, and what stops a lexer
* `exists_lexes` — a text is tokens, up to its end or to a bad character
* `Lexes.append` — the tokens of a text are tokens of a longer one
* `Lexer.drain_of_lexes` — the lexer passes over tokens at the front of a text
* `tokenize_of_lexes` — what is made of a whole text
-/

namespace StraightLine

/-! ## Classes of characters -/

/-- The signs of the language. -/
def isSign (c : Char) : Bool :=
  c ∈ ['*', '=', '(', ')', ';', '+', '-', '/']

/-- The characters that can stand in a program. -/
def isSourceChar (c : Char) : Bool :=
  isLetter c || c.isDigit || isBlank c || isSign c

theorem isSourceChar_of_isWordChar {c : Char} (h : isWordChar c = true) :
    isSourceChar c = true := by
  rw [isWordChar] at h
  simp [isSourceChar, h]

theorem isSourceChar_of_isBlank {c : Char} (h : isBlank c = true) : isSourceChar c = true := by
  simp [isSourceChar, h]

theorem isLetter_of_isDigit {c : Char} (h : c.isDigit = true) : isLetter c = false := by
  have hdigit : 48 ≤ c.toNat ∧ c.toNat ≤ 57 := by
    simpa [Char.isDigit, UInt32.le_iff_toNat_le] using h
  rw [isLetter_of_lt_128 (by omega), Bool.eq_false_iff]
  intro halpha
  have hletter : (65 ≤ c.toNat ∧ c.toNat ≤ 90) ∨ (97 ≤ c.toNat ∧ c.toNat ≤ 122) := by
    simpa [Char.isAlpha, Char.isUpper, Char.isLower, UInt32.le_iff_toNat_le] using halpha
  omega

theorem isWordChar_of_isBlank {c : Char} (h : isBlank c = true) : isWordChar c = false := by
  simp only [isBlank, Bool.or_eq_true, beq_iff_eq] at h
  rcases h with ((rfl | rfl) | rfl) | rfl <;> rfl

/-! ## Spellings -/

/-- Whether a text is a letter with letters and digits behind it. -/
def isWord : List Char → Bool
  | [] => false
  | c :: cs => isLetter c && cs.all isWordChar

namespace Token

/-- How a token is written in a program; the end token is not written. -/
def spelling : Token → String
  | ident name => name
  | literal text => text
  | keyword word => word.spelling
  | assign => "="
  | equal => "=="
  | plus => "+"
  | minus => "-"
  | times => "*"
  | power => "**"
  | slash => "/"
  | openParen => "("
  | closeParen => ")"
  | semicolon => ";"
  | eof => ""

/-- The token can be written: a name is a word and no keyword, a literal is a row of digits. -/
def WellSpelled : Token → Prop
  | ident name => isWord name.toList = true ∧ ∀ k : Keyword, name ≠ k.spelling
  | literal text => text.toList ≠ [] ∧ ∀ c ∈ text.toList, c.isDigit = true
  | eof => False
  | _ => True

/-- Whether a character right behind a token makes it longer. -/
def isExtendedBy : Token → Char → Bool
  | ident _, c => isWordChar c
  | keyword _, c => isWordChar c
  | literal _, c => c.isDigit
  | times, c => c == '*'
  | assign, c => c == '='
  | _, _ => false

/-- The token is not extended by the text behind it. -/
def EndsBefore (t : Token) (rest : List Char) : Prop :=
  ∀ c ∈ rest.head?, t.isExtendedBy c = false

end Token

/-! ### What extends a token -/

/-- Only letters, digits and two of the signs extend a token. -/
theorem Token.isExtendedBy_cases {t : Token} {c : Char} (h : t.isExtendedBy c = true) :
    isWordChar c = true ∨ c = '*' ∨ c = '=' := by
  cases t with
  | ident name => exact .inl h
  | keyword k => exact .inl h
  | literal text =>
    have hdigit : c.isDigit = true := h
    exact .inl (by simp [isWordChar, hdigit])
  | times => exact .inr (.inl (beq_iff_eq.mp h))
  | assign => exact .inr (.inr (beq_iff_eq.mp h))
  | _ => cases h

theorem Token.isExtendedBy_of_isBlank (t : Token) {c : Char} (h : isBlank c = true) :
    t.isExtendedBy c = false := by
  rw [Bool.eq_false_iff]
  intro hextended
  rcases isExtendedBy_cases hextended with hword | rfl | rfl
  · simp [isWordChar_of_isBlank h] at hword
  · cases h
  · cases h

/-- A token ends where blanks follow. -/
theorem Token.endsBefore_of_blank (t : Token) {blanks : List Char} (hne : blanks ≠ [])
    (hblank : ∀ c ∈ blanks, isBlank c = true) (cs : List Char) : t.EndsBefore (blanks ++ cs) := by
  cases blanks with
  | nil => exact absurd rfl hne
  | cons c blanks =>
    rintro _ ⟨rfl⟩
    exact t.isExtendedBy_of_isBlank (hblank c (by simp))

/-! ### Words -/

theorem Keyword.ofString?_eq_some_iff {word : String} {k : Keyword} :
    Keyword.ofString? word = some k ↔ word = k.spelling := by
  rw [ofString?]
  constructor
  · intro h
    split at h
    · next hint =>
      cases h
      exact hint
    · split at h
      · next hret =>
        cases h
        exact hret
      · cases h
  · rintro rfl
    cases k <;> rfl

theorem Keyword.isWord_spelling (k : Keyword) : isWord k.spelling.toList = true := by
  cases k <;> decide

namespace Token

variable {c : Char} {cs rest : List Char} {t : Token}

theorem ofWord_keyword (k : Keyword) : ofWord k.spelling = .keyword k := by
  rw [ofWord, Keyword.ofString?_eq_some_iff.mpr rfl]

theorem ofWord_of_ne {word : String} (h : ∀ k : Keyword, word ≠ k.spelling) :
    ofWord word = .ident word := by
  have hnone : Keyword.ofString? word = none :=
    Option.eq_none_iff_forall_ne_some.mpr fun k hk => h k (Keyword.ofString?_eq_some_iff.mp hk)
  rw [ofWord, hnone]

/-- A word is a keyword or a name, and spelled as it was. -/
theorem ofWord_spec {word : String} (h : isWord word.toList = true) :
    (ofWord word).WellSpelled ∧ (ofWord word).spelling = word ∧
      ∀ c, (ofWord word).isExtendedBy c = isWordChar c := by
  by_cases hk : ∃ k : Keyword, word = k.spelling
  · obtain ⟨k, rfl⟩ := hk
    rw [ofWord_keyword]
    exact ⟨trivial, rfl, fun _ => rfl⟩
  · push Not at hk
    rw [ofWord_of_ne hk]
    exact ⟨⟨h, hk⟩, rfl, fun _ => rfl⟩

/-- A token that is extended by one class of characters ends where the class ends. -/
theorem endsBefore_dropWhile {p : Char → Bool} (h : ∀ c, t.isExtendedBy c = p c)
    (cs : List Char) : t.EndsBefore (cs.dropWhile p) := by
  intro c hc
  have hhead := List.head?_dropWhile_not p cs
  rw [Option.mem_def.mp hc] at hhead
  rw [h]
  exact hhead

/-- A token that is extended by one character ends where the text does not go on with it. -/
theorem endsBefore_iff_ne {s : Char} (h : ∀ c, t.isExtendedBy c = (c == s)) :
    t.EndsBefore rest ↔ ∀ cs, rest ≠ s :: cs := by
  cases rest with
  | nil => simp [EndsBefore]
  | cons d rest => simp [EndsBefore, h]

theorem EndsBefore.takeWhile_append {p : Char → Bool} (h : t.EndsBefore rest)
    (hp : ∀ c, t.isExtendedBy c = p c) (hcs : ∀ c ∈ cs, p c = true) :
    (cs ++ rest).takeWhile p = cs ∧ (cs ++ rest).dropWhile p = rest := by
  rw [List.takeWhile_append_of_pos hcs, List.dropWhile_append_of_pos hcs]
  cases rest with
  | nil => simp
  | cons d rest =>
    have hd : p d = false := by rw [← hp, h d rfl]
    simp [hd]

end Token

/-! ## One token -/

section Lexeme

variable {c : Char} {cs rest : List Char} {t : Token} {e : LexError}

theorem lexeme_word {word : String} (hword : isWord word.toList = true)
    (hrest : (Token.ofWord word).EndsBefore rest) (h : c :: cs = word.toList ++ rest) :
    lexeme c cs = .ok (Token.ofWord word, rest) := by
  obtain ⟨-, -, hextended⟩ := Token.ofWord_spec hword
  cases hchars : word.toList with
  | nil => simp [hchars, isWord] at hword
  | cons d ds =>
    rw [hchars, isWord, Bool.and_eq_true, List.all_eq_true] at hword
    rw [hchars, List.cons_append] at h
    obtain ⟨rfl, rfl⟩ := List.cons.inj h
    obtain ⟨htake, hdrop⟩ := hrest.takeWhile_append hextended hword.2
    unfold lexeme
    rw [if_pos hword.1, htake, hdrop, ← hchars, String.ofList_toList]

theorem lexeme_literal {text : String} (hne : text.toList ≠ [])
    (hdigits : ∀ d ∈ text.toList, d.isDigit = true) (hrest : (Token.literal text).EndsBefore rest)
    (h : c :: cs = text.toList ++ rest) : lexeme c cs = .ok (.literal text, rest) := by
  cases hchars : text.toList with
  | nil => exact absurd hchars hne
  | cons d ds =>
    rw [hchars, List.forall_mem_cons] at hdigits
    rw [hchars, List.cons_append] at h
    obtain ⟨rfl, rfl⟩ := List.cons.inj h
    obtain ⟨htake, hdrop⟩ := hrest.takeWhile_append (p := Char.isDigit) (fun _ => rfl) hdigits.2
    unfold lexeme
    rw [if_neg (by simp [isLetter_of_isDigit hdigits.1]), if_pos hdigits.1, htake, hdrop, ← hchars,
      String.ofList_toList]

/-- **One token.** A lexer takes the token that is spelled at the front and ends there. -/
theorem lexeme_eq_ok_iff :
    lexeme c cs = .ok (t, rest) ↔
      t.WellSpelled ∧ c :: cs = t.spelling.toList ++ rest ∧ t.EndsBefore rest := by
  constructor
  · intro h
    unfold lexeme at h
    split at h
    · next hletter =>
      have hword : isWord (String.ofList (c :: cs.takeWhile isWordChar)).toList = true := by
        rw [String.toList_ofList, isWord, hletter, Bool.true_and, List.all_eq_true]
        exact fun d hd => List.mem_takeWhile_imp hd
      obtain ⟨hspelled, hspelling, hextended⟩ := Token.ofWord_spec hword
      cases h
      refine ⟨hspelled, ?_, Token.endsBefore_dropWhile hextended cs⟩
      rw [hspelling, String.toList_ofList, List.cons_append, List.takeWhile_append_dropWhile]
    · split at h
      · next hdigit =>
        cases h
        refine ⟨⟨by simp, ?_⟩, ?_, Token.endsBefore_dropWhile (fun _ => rfl) cs⟩
        · rw [String.toList_ofList, List.forall_mem_cons]
          exact ⟨hdigit, fun d hd => List.mem_takeWhile_imp hd⟩
        · rw [Token.spelling, String.toList_ofList, List.cons_append,
            List.takeWhile_append_dropWhile]
      · split at h <;> cases h
        · exact ⟨trivial, rfl, fun _ _ => rfl⟩
        · next hstar =>
          exact ⟨trivial, rfl, (Token.endsBefore_iff_ne fun _ => rfl).mpr fun cs' => hstar cs'⟩
        · exact ⟨trivial, rfl, fun _ _ => rfl⟩
        · next hequals =>
          exact ⟨trivial, rfl, (Token.endsBefore_iff_ne fun _ => rfl).mpr fun cs' => hequals cs'⟩
        all_goals exact ⟨trivial, rfl, fun _ _ => rfl⟩
  · rintro ⟨hspelled, hchars, hends⟩
    cases t with
    | ident name =>
      obtain ⟨hword, hname⟩ := hspelled
      rw [← Token.ofWord_of_ne hname] at hends ⊢
      exact lexeme_word hword hends hchars
    | keyword k =>
      rw [← Token.ofWord_keyword] at hends ⊢
      exact lexeme_word k.isWord_spelling hends hchars
    | literal text => exact lexeme_literal hspelled.1 hspelled.2 hends hchars
    | eof => exact hspelled.elim
    | times =>
      obtain ⟨rfl, rfl⟩ : c = '*' ∧ cs = rest := List.cons.inj hchars
      rw [lexeme]
      · rfl
      · exact (Token.endsBefore_iff_ne fun _ => rfl).mp hends
    | assign =>
      obtain ⟨rfl, rfl⟩ : c = '=' ∧ cs = rest := List.cons.inj hchars
      rw [lexeme]
      · rfl
      · exact (Token.endsBefore_iff_ne fun _ => rfl).mp hends
    | _ =>
      cases hchars
      rfl

/-- A spelling begins with a character that can stand in a program and is not blank. -/
theorem Token.WellSpelled.exists_cons (h : t.WellSpelled) :
    ∃ c cs, t.spelling.toList = c :: cs ∧ isBlank c = false ∧ isSourceChar c = true := by
  have hwordChar : ∀ c, isWordChar c = true → isBlank c = false ∧ isSourceChar c = true := by
    intro c hc
    refine ⟨?_, isSourceChar_of_isWordChar hc⟩
    rw [Bool.eq_false_iff]
    intro hblank
    simp [isWordChar_of_isBlank hblank] at hc
  cases t with
  | ident name =>
    cases hchars : name.toList with
    | nil => simp [WellSpelled, hchars, isWord] at h
    | cons c cs =>
      have hword := h.1
      rw [hchars, isWord, Bool.and_eq_true] at hword
      exact ⟨c, cs, hchars, hwordChar c (by simp [isWordChar, hword.1])⟩
  | literal text =>
    cases hchars : text.toList with
    | nil => exact absurd hchars h.1
    | cons c cs =>
      have hdigit := h.2 c (by simp [hchars])
      exact ⟨c, cs, hchars, hwordChar c (by simp [isWordChar, hdigit])⟩
  | keyword k => cases k <;> exact ⟨_, _, rfl, rfl, rfl⟩
  | eof => exact h.elim
  | _ => exact ⟨_, _, rfl, rfl, rfl⟩

/-- Whether a token is extended by another is decided by the other's spelling. -/
theorem Token.WellSpelled.endsBefore_append {w : Token} (h : w.WellSpelled) (cs : List Char) :
    t.EndsBefore (w.spelling.toList ++ cs) ↔ t.EndsBefore w.spelling.toList := by
  obtain ⟨c, ds, hchars, -⟩ := h.exists_cons
  rw [EndsBefore, EndsBefore, hchars]
  rfl

/-- A character that stops a lexer cannot stand in a program. -/
theorem lexeme_eq_error (h : lexeme c cs = .error e) (hblank : isBlank c = false) :
    e = .badChar c ∧ isSourceChar c = false := by
  unfold lexeme at h
  split at h
  · cases h
  · next hletter =>
    split at h
    · cases h
    · next hdigit =>
      split at h <;> cases h
      have hsign : isSign c = false := by
        rw [isSign, decide_eq_false_iff_not]
        simp only [List.mem_cons, List.not_mem_nil, or_false]
        tauto
      exact ⟨rfl, by simp [isSourceChar, hletter, hdigit, hblank, hsign]⟩

end Lexeme

/-! ## Tokens at the front of a text -/

/-- The tokens `ts` stand at the front of a text, each with blanks in front of it, and `rest` is
what is left behind the last of them. -/
inductive Lexes : List Char → List Token → List Char → Prop where
  | done (rest : List Char) : Lexes rest [] rest
  | token {blanks cs rest : List Char} {t : Token} {ts : List Token}
      (blank : ∀ c ∈ blanks, isBlank c = true) (spelled : t.WellSpelled)
      (ends : t.EndsBefore cs) (others : Lexes cs ts rest) :
      Lexes (blanks ++ t.spelling.toList ++ cs) (t :: ts) rest

/-- No token begins in a text: it is blank up to its end or to a bad character. -/
def Spent (rest : List Char) : Prop :=
  ∀ c ∈ (rest.dropWhile isBlank).head?, isSourceChar c = false

namespace Lexes

variable {cs rest tail : List Char} {ts : List Token}

theorem wellSpelled (h : Lexes cs ts rest) : ∀ t ∈ ts, t.WellSpelled := by
  induction h with
  | done rest => simp
  | token _ spelled _ _ ih => exact List.forall_mem_cons.mpr ⟨spelled, ih⟩

/-- What is left stands at the end of the text. -/
theorem suffix (h : Lexes cs ts rest) : rest <:+ cs := by
  induction h with
  | done rest => exact List.suffix_refl rest
  | token _ _ _ _ ih => exact ih.trans (List.suffix_append _ _)

/-- No token stands at the front of an empty text. -/
theorem eq_nil (h : Lexes cs ts rest) (hcs : cs = []) : ts = [] ∧ rest = [] := by
  cases h with
  | done rest => exact ⟨rfl, hcs⟩
  | token _ spelled _ _ =>
    obtain ⟨c, ds, hchars, -⟩ := spelled.exists_cons
    simp [hchars] at hcs

/-- **The tokens of a text are tokens of a longer one**, if the last of them is not extended. -/
theorem append (h : Lexes cs ts rest)
    (hlast : rest = [] → ∀ t ∈ ts.getLast?, t.EndsBefore tail) :
    Lexes (cs ++ tail) ts (rest ++ tail) := by
  induction h with
  | done rest => exact .done _
  | @token blanks cs rest t ts blank spelled ends others ih =>
    have hends : t.EndsBefore (cs ++ tail) := by
      cases cs with
      | nil =>
        obtain ⟨rfl, rfl⟩ := others.eq_nil rfl
        exact hlast rfl t rfl
      | cons c cs => exact ends
    have hrest : rest = [] → ∀ u ∈ ts.getLast?, u.EndsBefore tail := by
      intro hnil u hu
      refine hlast hnil u ?_
      rw [List.getLast?_cons, Option.mem_def.mp hu]
      rfl
    rw [List.append_assoc]
    exact .token blank spelled hends (ih hrest)

theorem blank_append {blanks : List Char} {t : Token} (h : Lexes cs (t :: ts) rest)
    (hblank : ∀ c ∈ blanks, isBlank c = true) : Lexes (blanks ++ cs) (t :: ts) rest := by
  cases h with
  | token blank spelled ends others =>
    have hboth := Lexes.token (List.forall_mem_append.mpr ⟨hblank, blank⟩) spelled ends others
    simpa using hboth

end Lexes

/-- **A text is tokens**, up to its end or to a bad character. -/
theorem exists_lexes (cs : List Char) : ∃ ts rest, Lexes cs ts rest ∧ Spent rest := by
  induction hn : cs.length using Nat.strong_induction_on generalizing cs with
  | h n ih =>
    subst hn
    have hcs : cs.takeWhile isBlank ++ cs.dropWhile isBlank = cs := List.takeWhile_append_dropWhile
    have hblank : ∀ c ∈ cs.takeWhile isBlank, isBlank c = true := fun c hc =>
      List.mem_takeWhile_imp hc
    cases hdrop : cs.dropWhile isBlank with
    | nil => exact ⟨[], cs, .done cs, by simp [Spent, hdrop]⟩
    | cons c ds =>
      have hc : isBlank c = false := by
        have hhead := List.head?_dropWhile_not isBlank cs
        rwa [hdrop] at hhead
      cases hlexeme : lexeme c ds with
      | error e =>
        refine ⟨[], cs, .done cs, ?_⟩
        rw [Spent, hdrop]
        rintro _ ⟨rfl⟩
        exact (lexeme_eq_error hlexeme hc).2
      | ok result =>
        obtain ⟨t, rest⟩ := result
        have hshorter : rest.length < cs.length := by
          have hle := length_le_of_lexeme hlexeme
          have hlen := congrArg List.length hcs
          rw [hdrop, List.length_append, List.length_cons] at hlen
          omega
        obtain ⟨ts, rest', hlexes, hspent⟩ := ih _ hshorter rest rfl
        obtain ⟨hspelled, hchars, hends⟩ := lexeme_eq_ok_iff.mp hlexeme
        have htoken := Lexes.token hblank hspelled hends hlexes
        rw [List.append_assoc, ← hchars, ← hdrop, hcs] at htoken
        exact ⟨t :: ts, rest', htoken, hspent⟩

/-! ## Where no token begins -/

/-- What a lexer gives at the end of a text, or at the first character that cannot stand in one. -/
def lexicalEnd (cs : List Char) : Except LexError Token :=
  match cs.find? (!isSourceChar ·) with
  | none => .ok .eof
  | some c => .error (.badChar c)

/-- Characters of programs can be passed over. -/
theorem find?_append_of_source {used : List Char} (h : ∀ d ∈ used, isSourceChar d = true)
    (rest : List Char) : (used ++ rest).find? (!isSourceChar ·) = rest.find? (!isSourceChar ·) := by
  have hnone : used.find? (!isSourceChar ·) = none := by simpa using h
  rw [List.find?_append, hnone, Option.none_or]

theorem lexicalEnd_append {used : List Char} (h : ∀ d ∈ used, isSourceChar d = true)
    (rest : List Char) : lexicalEnd (used ++ rest) = lexicalEnd rest := by
  rw [lexicalEnd, lexicalEnd, find?_append_of_source h]

theorem lexicalEnd_dropWhile (cs : List Char) :
    lexicalEnd (cs.dropWhile isBlank) = lexicalEnd cs := by
  conv_rhs => rw [← List.takeWhile_append_dropWhile (p := isBlank) (l := cs)]
  exact (lexicalEnd_append (fun d hd => isSourceChar_of_isBlank (List.mem_takeWhile_imp hd)) _).symm

theorem lexicalEnd_eq_ok_iff {cs : List Char} {t : Token} :
    lexicalEnd cs = .ok t ↔ t = .eof ∧ ∀ c ∈ cs, isSourceChar c = true := by
  rw [lexicalEnd]
  cases hfind : cs.find? (!isSourceChar ·) with
  | none =>
    have hgood : ∀ c ∈ cs, isSourceChar c = true := by simpa using hfind
    rw [Except.ok.injEq, eq_comm]
    exact (and_iff_left hgood).symm
  | some c =>
    have hbad : isSourceChar c = false := by simpa using List.find?_some hfind
    have hmem := List.mem_of_find?_eq_some hfind
    simp only [reduceCtorEq, false_iff, not_and]
    intro _ hgood
    simp [hgood c hmem] at hbad

theorem spent_of_blank {rest : List Char} (h : ∀ c ∈ rest, isBlank c = true) : Spent rest := by
  have hdrop : rest.dropWhile isBlank = [] := List.dropWhile_eq_nil_iff.mpr h
  simp [Spent, hdrop]

theorem lexicalEnd_of_blank {rest : List Char} (h : ∀ c ∈ rest, isBlank c = true) :
    lexicalEnd rest = .ok .eof :=
  lexicalEnd_eq_ok_iff.mpr ⟨rfl, fun c hc => isSourceChar_of_isBlank (h c hc)⟩

/-- Where no token begins and no character is bad, all is blank. -/
theorem blank_of_spent {rest : List Char} (h : Spent rest)
    (hgood : ∀ c ∈ rest, isSourceChar c = true) : ∀ c ∈ rest, isBlank c = true := by
  rw [← List.dropWhile_eq_nil_iff]
  cases hdrop : rest.dropWhile isBlank with
  | nil => rfl
  | cons c cs =>
    have hbad : isSourceChar c = false := h c (by rw [hdrop]; rfl)
    have hmem : c ∈ rest := (List.dropWhile_sublist isBlank).subset (by simp [hdrop])
    rw [hgood c hmem] at hbad
    cases hbad

/-! ## Following the lexer -/

namespace Lexer

variable {l : Lexer} {cs rest : List Char} {ts : List Token} {t : Token}

/-- A call passes over blanks and gives the token that is spelled there. -/
theorem next_of_spelled {blanks : List Char} (hfinished : l.finished = false)
    (hblank : ∀ c ∈ blanks, isBlank c = true) (hspelled : t.WellSpelled) (hends : t.EndsBefore cs)
    (hrest : l.rest = blanks ++ t.spelling.toList ++ cs) :
    ∃ l', l.next = (some (.ok t), l') ∧ l'.finished = false ∧ l'.rest = cs ∧
      l'.symbols = l.symbols.addToken t := by
  obtain ⟨c, ds, hchars, hc, -⟩ := hspelled.exists_cons
  have hdrop : l.rest.dropWhile isBlank = c :: (ds ++ cs) := by
    rw [hrest, List.append_assoc, List.dropWhile_append_of_pos hblank, hchars, List.cons_append,
      List.dropWhile_cons_of_neg (by simp [hc])]
  have hlexeme : lexeme c (ds ++ cs) = .ok (t, cs) :=
    lexeme_eq_ok_iff.mpr ⟨hspelled, by rw [hchars, List.cons_append], hends⟩
  refine ⟨{ l with rest := cs, symbols := l.symbols.addToken t }, ?_, hfinished, rfl, rfl⟩
  rw [next, if_neg (by simp [hfinished]), hdrop]
  simp only [hlexeme]

/-- Where no token begins, a call gives the end of the text and finishes. -/
theorem next_of_spent (hfinished : l.finished = false) (hspent : Spent l.rest) :
    ∃ l', l.next = (some (lexicalEnd l.rest), l') ∧ l'.finished = true ∧
      l'.symbols = l.symbols := by
  have hend := lexicalEnd_dropWhile l.rest
  rw [next, if_neg (by simp [hfinished]), ← hend]
  split
  · next hrest =>
    rw [hrest]
    exact ⟨_, rfl, rfl, rfl⟩
  · next c cs hrest =>
    have hbad : isSourceChar c = false := hspent c (by rw [hrest]; rfl)
    have hc : isBlank c = false := by
      have hhead := List.head?_dropWhile_not isBlank l.rest
      rwa [hrest] at hhead
    split
    · next e hlexeme =>
      obtain ⟨rfl, -⟩ := lexeme_eq_error hlexeme hc
      rw [hrest, lexicalEnd, List.find?_cons_of_pos (by simp [hbad])]
      exact ⟨_, rfl, rfl, rfl⟩
    · next t rest hlexeme =>
      obtain ⟨hspelled, hchars, -⟩ := lexeme_eq_ok_iff.mp hlexeme
      obtain ⟨d, ds, hspelling, -, hgood⟩ := hspelled.exists_cons
      rw [hspelling] at hchars
      cases hchars
      rw [hgood] at hbad
      cases hbad

/-- **The lexer passes over the tokens at the front of a text.** -/
theorem drain_of_lexes (h : Lexes cs ts rest) (hfinished : l.finished = false)
    (hrest : l.rest = cs) :
    ∃ l' : Lexer, l'.finished = false ∧ l'.rest = rest ∧
      l'.symbols = ts.foldl SymbolTable.addToken l.symbols ∧
      l.drain = (ts.map .ok ++ l'.drain.1, l'.drain.2) := by
  induction h generalizing l with
  | done rest => exact ⟨l, hfinished, hrest, rfl, rfl⟩
  | token blank spelled ends _ ih =>
    obtain ⟨l₁, hnext, hfinished₁, hrest₁, hsymbols₁⟩ :=
      next_of_spelled hfinished blank spelled ends hrest
    obtain ⟨l', hfinished', hrest', hsymbols', hdrain⟩ := ih hfinished₁ hrest₁
    refine ⟨l', hfinished', hrest', ?_, ?_⟩
    · rw [hsymbols', hsymbols₁, List.foldl_cons]
    · rw [drain_of_next hnext, hdrain]
      rfl

end Lexer

/-- **What is made of a text** whose tokens are known, up to its end or to a bad character. -/
theorem tokenize_of_lexes {source : String} {ts : List Token} {rest : List Char}
    (h : Lexes source.toList ts rest) (hspent : Spent rest) (given : SymbolTable) :
    tokenize source given =
      ((lexicalEnd rest).map fun last => ts ++ [last], ts.foldl SymbolTable.addToken given) := by
  obtain ⟨l₁, hfinished₁, hrest₁, hsymbols₁, hdrain₁⟩ :=
    Lexer.drain_of_lexes (l := Lexer.ofString source given) h rfl rfl
  obtain ⟨l₂, hnext, hfinished₂, hsymbols₂⟩ :=
    Lexer.next_of_spent hfinished₁ (by rwa [hrest₁])
  have hdrain : (Lexer.ofString source given).drain = (ts.map .ok ++ [lexicalEnd rest], l₂) := by
    rw [hdrain₁, Lexer.drain_of_next hnext, Lexer.drain_of_finished hfinished₂, hrest₁]
  rw [tokenize, Scan.ofString, hdrain]
  exact Prod.ext (mapM_id_concat ts _) (hsymbols₂.trans hsymbols₁)

end StraightLine
