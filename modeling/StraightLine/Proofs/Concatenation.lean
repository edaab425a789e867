import Mathlib
import StraightLine.Proofs.Spelling

/-!
# Two texts in a row

Where a token ends is decided by the character behind it. So the tokens of a text and of the text
behind it are the tokens of both in a row, unless the last token of the first text goes on in the
second. It cannot go on if the second text begins with a character that extends no token, nor if the
first text ends with a character that ends no token which can be extended.

Nothing else passes from one text to the other but the symbol table. In particular a lexer that has
met a bad character never sees the second text.

## Main definitions

* `CleanBoundary` — no token can reach from one text into the other

## Main results

* `Lexes.trans`, `Lexes.exists_blank_append` — tokens behind tokens, and tokens behind blanks
* `CleanBoundary.endsBefore`, `CleanBoundary.lexes_append` — tokens in front of a clean boundary
* `tokenize_append` — two texts in a row
-/

namespace StraightLine

variable {cs ds rest : List Char} {ts us : List Token} {t : Token}

/-! ## Tokens behind tokens -/

namespace Lexes

theorem trans (h : Lexes cs ts ds) (h' : Lexes ds us rest) : Lexes cs (ts ++ us) rest := by
  induction h with
  | done rest => exact h'
  | token blank spelled ends _ ih => exact .token blank spelled ends (ih h')

/-- A text that is read to its very end ends with its last token. -/
theorem spelling_suffix (h : Lexes cs ts []) (ht : ts.getLast? = some t) :
    t.spelling.toList <:+ cs := by
  generalize hrest : ([] : List Char) = rest at h
  induction h with
  | done rest => cases ht
  | @token blanks cs rest u ts blank spelled ends others ih =>
    subst hrest
    cases ts with
    | nil =>
      obtain rfl : u = t := Option.some.inj ht
      cases others
      exact ⟨blanks, by simp⟩
    | cons v ts =>
      rw [List.getLast?_cons_cons] at ht
      exact (ih ht rfl).trans (List.suffix_append _ _)

/-- Blanks in front of a text change nothing. -/
theorem exists_blank_append {blanks : List Char} (h : Lexes cs ts rest) (hspent : Spent rest)
    (hblank : ∀ c ∈ blanks, isBlank c = true) :
    ∃ rest', Lexes (blanks ++ cs) ts rest' ∧ Spent rest' ∧ lexicalEnd rest' = lexicalEnd rest := by
  cases ts with
  | cons t ts => exact ⟨rest, h.blank_append hblank, hspent, rfl⟩
  | nil =>
    -- the blanks are left over then, together with all of the text
    cases h
    refine ⟨blanks ++ cs, .done _, ?_, ?_⟩
    · rwa [Spent, List.dropWhile_append_of_pos hblank]
    · exact lexicalEnd_append (fun c hc => isSourceChar_of_isBlank (hblank c hc)) cs

end Lexes

/-- A bad character stops the lexer whatever stands behind it. -/
theorem spent_append_of_error {e : LexError} (hspent : Spent rest)
    (herror : lexicalEnd rest = .error e) (tail : List Char) :
    Spent (rest ++ tail) ∧ lexicalEnd (rest ++ tail) = .error e := by
  have hstart : rest.dropWhile isBlank ≠ [] := by
    intro hnil
    rw [← lexicalEnd_dropWhile, hnil] at herror
    cases herror
  constructor
  · rw [Spent, List.dropWhile_append, if_neg (by simpa using hstart),
      List.head?_append_of_ne_nil _ hstart]
    exact hspent
  · rw [lexicalEnd] at herror ⊢
    rw [List.find?_append]
    cases hfind : rest.find? (!isSourceChar ·) with
    | none =>
      rw [hfind] at herror
      cases herror
    | some c =>
      rw [hfind] at herror
      exact herror

/-! ## Boundaries -/

/-- Whether a character extends no token. -/
def startsFresh (c : Char) : Bool :=
  !(isWordChar c || c == '*' || c == '=')

/-- Whether no token that ends with a character can be extended. -/
def endsClean (c : Char) : Bool :=
  isBlank c || c ∈ ['(', ')', ';', '+', '-', '/']

/-- No token can reach from the first text into the second: the second is empty or begins with a
character that extends no token, or the first is empty or ends with a character that is extended by
none. -/
def CleanBoundary (a b : String) : Prop :=
  b.toList.head?.all startsFresh = true ∨ a.toList.getLast?.all endsClean = true

instance (a b : String) : Decidable (CleanBoundary a b) :=
  inferInstanceAs (Decidable (_ ∨ _))

theorem isExtendedBy_of_startsFresh {c : Char} (h : startsFresh c = true) (t : Token) :
    t.isExtendedBy c = false := by
  rw [Bool.eq_false_iff]
  intro hextended
  rcases Token.isExtendedBy_cases hextended with hword | rfl | rfl
  · simp [startsFresh, hword] at h
  · cases h
  · cases h

theorem isWordChar_of_endsClean {c : Char} (h : endsClean c = true) : isWordChar c = false := by
  rw [endsClean, Bool.or_eq_true, decide_eq_true_eq] at h
  rcases h with hblank | hsign
  · exact isWordChar_of_isBlank hblank
  · simp only [List.mem_cons, List.not_mem_nil, or_false] at hsign
    rcases hsign with rfl | rfl | rfl | rfl | rfl | rfl <;> rfl

theorem isWordChar_of_isWord (h : isWord cs = true) : ∀ c ∈ cs, isWordChar c = true := by
  cases cs with
  | nil => simp
  | cons c cs =>
    rw [isWord, Bool.and_eq_true, List.all_eq_true] at h
    exact List.forall_mem_cons.mpr ⟨by simp [isWordChar, h.1], h.2⟩

/-- A token that can be extended ends with a letter, a digit or one of the signs that do so. -/
theorem Token.WellSpelled.isExtendedBy_of_endsClean {c : Char} (h : t.WellSpelled)
    (hlast : t.spelling.toList.getLast? = some c) (hc : endsClean c = true) (d : Char) :
    t.isExtendedBy d = false := by
  have hmem : c ∈ t.spelling.toList := List.mem_of_getLast? hlast
  have hnoWord := isWordChar_of_endsClean hc
  cases t with
  | ident name => simp [isWordChar_of_isWord h.1 c hmem] at hnoWord
  | keyword k => simp [isWordChar_of_isWord k.isWord_spelling c hmem] at hnoWord
  | literal text => simp [isWordChar, h.2 c hmem] at hnoWord
  | times =>
    obtain rfl : '*' = c := Option.some.inj hlast
    cases hc
  | assign =>
    obtain rfl : '=' = c := Option.some.inj hlast
    cases hc
  | _ => rfl

/-- **At a clean boundary every token ends.** -/
theorem CleanBoundary.endsBefore {a b : String} (h : CleanBoundary a b) (hspelled : t.WellSpelled)
    (hsuffix : t.spelling.toList <:+ a.toList) : t.EndsBefore b.toList := by
  rw [CleanBoundary, Option.all_eq_true, Option.all_eq_true] at h
  rcases h with hfresh | hclean
  · exact fun c hc => isExtendedBy_of_startsFresh (hfresh c hc) t
  · obtain ⟨d, ds, hchars, -⟩ := hspelled.exists_cons
    have hne : t.spelling.toList ≠ [] := by simp [hchars]
    have hlast := List.getLast?_eq_some_getLast hne
    obtain ⟨front, hfront⟩ := hsuffix
    have hclean' := hclean (t.spelling.toList.getLast hne) (by
      rw [← hfront, List.getLast?_append_of_ne_nil front hne]
      exact hlast)
    exact fun c _ => hspelled.isExtendedBy_of_endsClean hlast hclean' c

/-- The tokens at the front of a text are at the front of both texts in a row. -/
theorem CleanBoundary.lexes_append {a b : String} (h : CleanBoundary a b)
    (hlexes : Lexes a.toList ts rest) : Lexes (a ++ b).toList ts (rest ++ b.toList) := by
  rw [String.toList_append]
  refine hlexes.append fun hnil t ht => ?_
  subst hnil
  exact h.endsBefore (hlexes.wellSpelled t (List.mem_of_getLast? ht)) (hlexes.spelling_suffix ht)

/-! ## Concatenation -/

/-- **Two texts in a row, at a clean boundary.** If the first text has a bad character, nothing of
the second is read. Otherwise the tokens of the second text follow those of the first, without the
end token in between, and the lexer goes on with the table that the first text leaves: the tokens
or the error, and the table, are those of the second text read from there. -/
theorem tokenize_append {a b : String} (h : CleanBoundary a b) (given : SymbolTable) :
    (∀ e left, tokenize a given = (.error e, left) → tokenize (a ++ b) given = (.error e, left)) ∧
      ∀ tokens left, tokenize a given = (.ok tokens, left) →
        ∃ ts, tokens = ts ++ [.eof] ∧
          tokenize (a ++ b) given = ((tokenize b left).1.map (ts ++ ·), (tokenize b left).2) := by
  obtain ⟨ts, rest, hlexes, hspent⟩ := exists_lexes a.toList
  have hboth := h.lexes_append hlexes
  have hfirst := tokenize_of_lexes hlexes hspent given
  constructor
  · intro e left herror
    rw [hfirst] at herror
    cases hend : lexicalEnd rest with
    | ok last =>
      rw [hend] at herror
      cases herror
    | error e' =>
      rw [hend] at herror
      obtain ⟨hspent', hend'⟩ := spent_append_of_error hspent hend b.toList
      rw [tokenize_of_lexes hboth hspent' given, hend']
      exact herror
  · intro tokens left hok
    rw [hfirst] at hok
    cases hend : lexicalEnd rest with
    | error e =>
      rw [hend] at hok
      cases hok
    | ok last =>
      rw [hend] at hok
      obtain ⟨rfl, hgood⟩ := lexicalEnd_eq_ok_iff.mp hend
      obtain ⟨htokens, rfl⟩ := Prod.mk.inj hok
      refine ⟨ts, (Except.ok.inj htokens).symm, ?_⟩
      -- what is left of the first text is blank, so the tokens of the second follow
      obtain ⟨us, rest₂, hlexes₂, hspent₂⟩ := exists_lexes b.toList
      obtain ⟨rest', hlexes', hspent', hend'⟩ :=
        hlexes₂.exists_blank_append hspent₂ (blank_of_spent hspent hgood)
      rw [tokenize_of_lexes (hboth.trans hlexes') hspent', tokenize_of_lexes hlexes₂ hspent₂, hend',
        List.foldl_append]
      cases lexicalEnd rest₂ with
      | error e => rfl
      | ok last => simp [Except.map]

/-- A blank keeps two asterisks apart. The second text has a bad character, and the name in front of
that character is in the table, behind the name of the first text. -/
theorem tokenize_append_asterisks :
    CleanBoundary "x * " "*y#" ∧
      tokenize ("x * " ++ "*y#") .empty =
        (.error (.badChar '#'), (SymbolTable.empty.add "x").add "y") := by
  have hclean : CleanBoundary "x * " "*y#" := by decide +kernel
  have hfirst : tokenize "x * " .empty =
      (.ok [.ident "x", .times, .eof], SymbolTable.empty.add "x") := by decide +kernel
  have hsecond : tokenize "*y#" (SymbolTable.empty.add "x") =
      (.error (.badChar '#'), (SymbolTable.empty.add "x").add "y") := by decide +kernel
  obtain ⟨ts, -, hboth⟩ := (tokenize_append hclean .empty).2 _ _ hfirst
  refine ⟨hclean, ?_⟩
  rw [hboth, hsecond]
  rfl

-- without the blank they are one token
example : ¬ CleanBoundary "x *" "*y" ∧
    (tokenize ("x *" ++ "*y") .empty).1 = .ok [.ident "x", .power, .ident "y", .eof] := by
  decide +kernel

end StraightLine
