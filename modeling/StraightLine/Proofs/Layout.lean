import Mathlib
import StraightLine.Proofs.Spelling

/-!
# How a program is laid out

A text with tokens is made of their spellings, with blanks in front, in between and behind. Blanks
may be missing between two tokens unless the second one extends the first. `Layout` is this
description of a text, without a lexer in it, and the lexer finds the tokens of a text exactly if
the text has such a description: a run of asterisks or a word behind a number can be taken apart in
several ways, but in one way only so that no token is extended.

## Main definitions

* `Layout` — tokens with blanks around them

## Main results

* `Lexes.exists_layout`, `Layout.lexes` — a layout is read from its front
* `lexes_intercalate` — tokens joined with blanks
* `tokenize_eq_ok_iff_layout` — the tokens of a text are those of its layouts
-/

namespace StraightLine

/-- Tokens with blanks in front of the first and behind each of them. Between two tokens there may
be no blanks if the second one does not extend the first. -/
structure Layout where
  /-- The blanks in front of the first token. -/
  lead : List Char
  /-- The tokens, each with the blanks behind it. -/
  words : List (Token × List Char)
  lead_blank : ∀ c ∈ lead, isBlank c = true
  blank : ∀ w ∈ words, ∀ c ∈ w.2, isBlank c = true
  spelled : ∀ w ∈ words, w.1.WellSpelled
  apart : words.IsChain fun v w => v.2 = [] → v.1.EndsBefore w.1.spelling.toList

namespace Layout

/-- The tokens of a layout. -/
def tokens (y : Layout) : List Token :=
  y.words.map Prod.fst

/-- The characters of a layout: blanks, and then each token as it is spelled with the blanks behind
it. -/
def chars (y : Layout) : List Char :=
  y.lead ++ y.words.flatMap fun w => w.1.spelling.toList ++ w.2

/-- A layout as a text. -/
def text (y : Layout) : String :=
  String.ofList y.chars

end Layout

/-- Tokens at the front of a text with only blanks behind them are laid out there. -/
theorem Lexes.exists_layout {cs rest : List Char} {ts : List Token} (h : Lexes cs ts rest)
    (hrest : ∀ c ∈ rest, isBlank c = true) : ∃ y : Layout, y.tokens = ts ∧ y.chars = cs := by
  induction h with
  | done rest =>
    exact ⟨⟨rest, [], hrest, by simp, by simp, .nil⟩, rfl, by simp [Layout.chars]⟩
  | @token blanks cs rest t ts blank spelled ends _ ih =>
    obtain ⟨⟨lead, words, hlead, hwords, hspelled, hapart⟩, rfl, rfl⟩ := ih hrest
    have hfirst : ((t, lead) :: words).IsChain
        fun v w => v.2 = [] → v.1.EndsBefore w.1.spelling.toList := by
      cases words with
      | nil => exact .singleton _
      | cons w words =>
        refine .cons_cons ?_ hapart
        rintro rfl
        have hw : w.1.WellSpelled := hspelled w (by simp)
        simpa [Layout.chars, hw.endsBefore_append] using ends
    exact ⟨⟨blanks, (t, lead) :: words, blank, List.forall_mem_cons.mpr ⟨hlead, hwords⟩,
      List.forall_mem_cons.mpr ⟨spelled, hspelled⟩, hfirst⟩, rfl, by simp [Layout.chars]⟩

namespace Layout

/-- The tokens of a layout stand at its front, and what is left is blank. -/
theorem lexes (y : Layout) :
    ∃ rest, Lexes y.chars y.tokens rest ∧ ∀ c ∈ rest, isBlank c = true := by
  obtain ⟨lead, words, hlead, hwords, hspelled, hapart⟩ := y
  simp only [chars, tokens]
  induction words generalizing lead with
  | nil => exact ⟨lead, by simpa using .done lead, hlead⟩
  | cons w words ih =>
    obtain ⟨t, blanks⟩ := w
    rw [List.forall_mem_cons] at hwords hspelled
    obtain ⟨rest, hlexes, hrest⟩ := ih blanks hwords.1 hwords.2 hspelled.2 hapart.tail
    have hends : t.EndsBefore (blanks ++ words.flatMap fun w => w.1.spelling.toList ++ w.2) := by
      cases blanks with
      | cons c blanks => exact t.endsBefore_of_blank (by simp) hwords.1 _
      | nil =>
        cases words with
        | nil => simp [Token.EndsBefore]
        | cons w words =>
          have hw : w.1.WellSpelled := hspelled.2 w (by simp)
          simpa [hw.endsBefore_append] using (List.isChain_cons_cons.mp hapart).1 rfl
    refine ⟨rest, ?_, hrest⟩
    simpa using Lexes.token hlead hspelled.1 hends hlexes

end Layout

/-- Tokens that are joined with blanks stand where they were put. -/
theorem lexes_intercalate {sep : List Char} {ts : List Token} (hne : sep ≠ [])
    (hblank : ∀ c ∈ sep, isBlank c = true) (hspelled : ∀ t ∈ ts, t.WellSpelled) :
    Lexes (sep.intercalate (ts.map (String.toList ∘ Token.spelling))) ts [] := by
  induction ts with
  | nil => exact .done []
  | cons t ts ih =>
    rw [List.forall_mem_cons] at hspelled
    cases ts with
    | nil =>
      have hlast : Lexes ([] ++ t.spelling.toList ++ []) [t] [] :=
        .token (by simp) hspelled.1 (by simp [Token.EndsBefore]) (.done [])
      simpa using hlast
    | cons u ts =>
      have hends := t.endsBefore_of_blank hne hblank
        (sep.intercalate ((u :: ts).map (String.toList ∘ Token.spelling)))
      have hfirst : Lexes ([] ++ t.spelling.toList ++ _) (t :: u :: ts) [] :=
        .token (by simp) hspelled.1 hends ((ih hspelled.2).blank_append hblank)
      rw [List.map_cons, List.map_cons, List.intercalate_cons_cons]
      simpa using hfirst

/-! ## The tokens of a text -/

/-- **The tokens of a text are those of its layouts.** A text has the tokens `ts` exactly if it can
be taken apart into their spellings and blanks, so that no token is extended by one that follows it
without blanks. So tokens that are joined with blanks are read back. -/
theorem tokenize_eq_ok_iff_layout (source : String) (given : SymbolTable) (ts : List Token) :
    ((tokenize source given).1 = .ok (ts ++ [.eof]) ↔
      ∃ y : Layout, y.tokens = ts ∧ y.text = source) ∧
    ∀ sep : String, sep.toList ≠ [] → (∀ c ∈ sep.toList, isBlank c = true) →
      (∀ t ∈ ts, t.WellSpelled) →
        (tokenize (sep.intercalate (ts.map Token.spelling)) given).1 = .ok (ts ++ [.eof]) := by
  refine ⟨⟨fun h => ?_, ?_⟩, fun sep hne hblank hspelled => ?_⟩
  · obtain ⟨ts', rest, hlexes, hspent⟩ := exists_lexes source.toList
    rw [tokenize_of_lexes hlexes hspent] at h
    cases hend : lexicalEnd rest with
    | error e =>
      rw [hend] at h
      cases h
    | ok last =>
      obtain ⟨rfl, hgood⟩ := lexicalEnd_eq_ok_iff.mp hend
      rw [hend] at h
      obtain rfl : ts' = ts := List.append_cancel_right (Except.ok.inj h)
      obtain ⟨y, hy, hchars⟩ := hlexes.exists_layout (blank_of_spent hspent hgood)
      exact ⟨y, hy, by rw [Layout.text, hchars, String.ofList_toList]⟩
  · rintro ⟨y, rfl, rfl⟩
    obtain ⟨rest, hlexes, hblank⟩ := y.lexes
    rw [tokenize_of_lexes (by rwa [Layout.text, String.toList_ofList]) (spent_of_blank hblank),
      lexicalEnd_of_blank hblank]
    rfl
  · have hlexes := lexes_intercalate hne hblank hspelled
    rw [tokenize_of_lexes (by simpa using hlexes) (spent_of_blank (by simp))]
    rfl

/-- The text `x1***12abc int`: most of its tokens need no blanks between them. -/
def crowdedLayout : Layout where
  lead := []
  words := [(.ident "x1", []), (.power, []), (.times, []), (.literal "12", []),
    (.ident "abc", [' ']), (.keyword .int, [])]
  lead_blank := by simp
  blank := by simp [isBlank]
  spelled := by
    have hname : ∀ name ∈ ["x1", "abc"], ∀ k : Keyword, name ≠ k.spelling := by
      intro name hname k
      cases k <;> revert name <;> decide
    have hx1 : (Token.ident "x1").WellSpelled := ⟨by decide, hname "x1" (by simp)⟩
    have habc : (Token.ident "abc").WellSpelled := ⟨by decide, hname "abc" (by simp)⟩
    have htwelve : (Token.literal "12").WellSpelled := by simp [Token.WellSpelled]
    simp only [List.forall_mem_cons]
    exact ⟨hx1, trivial, trivial, htwelve, habc, trivial, by simp⟩
  apart := by
    have hstar : isWordChar '*' = false := rfl
    simp [Token.EndsBefore, Token.isExtendedBy, Token.spelling, hstar]

theorem tokenize_crowdedLayout :
    crowdedLayout.text = "x1***12abc int" ∧
      (tokenize "x1***12abc int" .empty).1 = .ok [.ident "x1", .power, .times, .literal "12",
        .ident "abc", .keyword .int, .eof] ∧
      (tokenize "x1 ** * 12 abc int" .empty).1 = .ok [.ident "x1", .power, .times, .literal "12",
        .ident "abc", .keyword .int, .eof] := by
  have htext : crowdedLayout.text = "x1***12abc int" := by decide
  obtain ⟨hiff, hjoin⟩ := tokenize_eq_ok_iff_layout "x1***12abc int" .empty crowdedLayout.tokens
  have hspelled : ∀ t ∈ crowdedLayout.tokens, t.WellSpelled := by
    simpa [Layout.tokens] using crowdedLayout.spelled
  have hjoined := hjoin " " (by decide) (by simp [isBlank]) hspelled
  exact ⟨htext, hiff.mpr ⟨crowdedLayout, rfl, htext⟩, hjoined⟩

end StraightLine
