import Mathlib
import StraightLine.Proofs.SymbolTable

/-!
# What a symbol table remembers

A table is built by entering names and giving types, in any order and as often as one likes. Of all
that it keeps which names were entered, and which of these were given a type when they were already
there. Everything else is forgotten: entering a name again changes nothing, and a type for a name
that is not there is lost.

The names of a table stand in increasing order, so this is also all that can be seen of it. Two
tables in which the same is found under every name are the same list, and two histories that agree
on the names and on the typed names end in one table with one listing.

## Main definitions

* `SymbolTable.Edit`, `SymbolTable.afterEdits` — changes of a table, and the table behind them
* `SymbolTable.Types` — a history gives a type to a name that is there

## Main results

* `SymbolTable.eq_of_find?_eq` — what is found under the names determines the table
* `SymbolTable.contains_afterEdits`, `SymbolTable.typed_afterEdits` — names and types of a history
* `table_of_edits` — what a history leaves, and that nothing else about it matters
-/

namespace StraightLine

namespace SymbolTable

variable {s t : SymbolTable} {x y : String} {type : SourceType}

/-! ## A table is what is found in it -/

theorem nodup_names (s : SymbolTable) : s.names.Nodup :=
  List.Pairwise.nodup s.increasing

/-- The entries are the names with what is found under them. -/
theorem mem_entries_iff {v : Option SourceType} : (x, v) ∈ s.entries ↔ s.find? x = some v := by
  rw [find?, List.lookup_eq_some_iff]
  constructor
  · intro h
    obtain ⟨front, back, hentries⟩ := List.append_of_mem h
    refine ⟨front, back, hentries, fun e he => ?_⟩
    -- a name stands only once, so not in front of itself
    have hnodup := s.nodup_names
    rw [names, hentries, List.map_append, List.map_cons, List.nodup_append] at hnodup
    have hne := hnodup.2.2 e.1 (List.mem_map_of_mem he) x (by simp)
    simpa using Ne.symm hne
  · rintro ⟨front, back, hentries, -⟩
    simp [hentries]

/-- **A table is determined by what is found in it**, as there is only one increasing order. -/
theorem eq_of_find?_eq (h : ∀ x, s.find? x = t.find? x) : s = t := by
  have hincreasing : ∀ u : SymbolTable, u.entries.Pairwise fun a b => a.1 < b.1 := fun u =>
    List.pairwise_map.mp u.increasing
  have hperm : s.entries.Perm t.entries := by
    rw [List.perm_ext_iff_of_nodup s.nodup_names.of_map t.nodup_names.of_map]
    rintro ⟨x, v⟩
    rw [mem_entries_iff, mem_entries_iff, h]
  have hentries : s.entries = t.entries :=
    hperm.eq_of_pairwise (fun _ _ _ _ hab hba => absurd hba (String.lt_asymm hab)) (hincreasing s)
      (hincreasing t)
  cases s
  cases t
  congr

/-- There is one type, so what is found under a name is decided by two questions. -/
theorem find?_eq_of_iff (hcontains : s.contains x = true ↔ t.contains x = true)
    (htyped : s.find? x = some (some .int) ↔ t.find? x = some (some .int)) :
    s.find? x = t.find? x := by
  rw [contains, contains] at hcontains
  have hint : ∀ type : SourceType, type = .int := by
    intro type
    cases type
    rfl
  rcases hs : s.find? x with _ | _ | u <;> rcases ht : t.find? x with _ | _ | v <;>
    simp_all

/-! ## Edits without effect -/

/-- Entering a name again changes nothing. -/
theorem add_of_contains (h : s.contains x = true) : s.add x = s := by
  refine eq_of_find?_eq fun y => ?_
  rw [find?_add]
  by_cases hy : y = x
  · obtain ⟨v, hv⟩ := Option.isSome_iff_exists.mp h
    rw [hy, show s.find? x = some v from hv, Option.some_or]
  · rw [if_neg hy, Option.or_none]

/-- Giving a type to a name that is not there changes nothing. -/
theorem declare_of_not_contains (h : ¬ s.contains x = true) : s.declare x type = s := by
  refine eq_of_find?_eq fun y => ?_
  rw [find?_declare]
  split
  · next hy =>
    have hnone : s.find? y = none := by
      rw [hy]
      exact Option.not_isSome_iff_eq_none.mp h
    rw [hnone, Option.map_none]
  · rfl

/-! ## Histories -/

/-- A change of a table. -/
inductive Edit where
  /-- Enter a name. -/
  | add (name : String)
  /-- Give a type to a name. -/
  | declare (name : String) (type : SourceType)
  deriving DecidableEq

/-- Change a table. -/
def Edit.apply (s : SymbolTable) : Edit → SymbolTable
  | .add name => s.add name
  | .declare name type => s.declare name type

/-- The name that an edit enters. -/
def Edit.added? : Edit → Option String
  | .add name => some name
  | .declare .. => none

/-- The table behind a history of edits, which begins with the empty table. -/
def afterEdits (history : List Edit) : SymbolTable :=
  history.foldl Edit.apply empty

/-- The name is given a type somewhere behind the first edit that enters it. -/
def Types (history : List Edit) (x : String) : Prop :=
  ∃ type, .declare x type ∈ history.dropWhile (· ≠ .add x)

variable {history : List Edit} {e : Edit}

theorem afterEdits_concat (history : List Edit) (e : Edit) :
    afterEdits (history ++ [e]) = e.apply (afterEdits history) := by
  rw [afterEdits, List.foldl_append]
  rfl

theorem mem_filterMap_added? : x ∈ history.filterMap Edit.added? ↔ .add x ∈ history := by
  rw [List.mem_filterMap]
  constructor
  · rintro ⟨e, he, hx⟩
    cases e with
    | add y => rwa [← Option.some.inj hx]
    | declare y type => cases hx
  · exact fun h => ⟨.add x, h, rfl⟩

theorem dropWhile_eq_nil_iff_not_mem : history.dropWhile (· ≠ .add x) = [] ↔ .add x ∉ history := by
  rw [List.dropWhile_eq_nil_iff]
  constructor
  · intro h hx
    simpa using h _ hx
  · rintro h e he
    have hne : e ≠ .add x := fun heq => h (heq ▸ he)
    simpa using hne

theorem not_types_nil (x : String) : ¬ Types [] x := by
  simp [Types]

/-- One more edit gives a type to a name if it says so and the name has been entered before. -/
theorem types_concat : Types (history ++ [e]) x ↔
    Types history x ∨ .add x ∈ history ∧ ∃ type, e = .declare x type := by
  rw [Types, Types, List.dropWhile_append]
  by_cases hx : .add x ∈ history
  · have hstart : (history.dropWhile (· ≠ .add x)).isEmpty = false := by
      rw [List.isEmpty_eq_false_iff]
      exact fun hnil => dropWhile_eq_nil_iff_not_mem.mp hnil hx
    rw [hstart, if_neg (by simp)]
    simp only [List.mem_append, List.mem_singleton, exists_or, hx, true_and]
    exact or_congr_right (exists_congr fun type => eq_comm)
  · -- the new edit is the first that can enter the name, and then it gives no type
    have hnil := dropWhile_eq_nil_iff_not_mem.mpr hx
    rw [hnil, List.isEmpty_nil, if_pos rfl]
    have hlast : ∀ type, .declare x type ∉ [e].dropWhile (· ≠ .add x) := by
      intro type hmem
      have heq : Edit.declare x type = e :=
        List.mem_singleton.mp ((List.dropWhile_sublist _).subset hmem)
      rw [← heq] at hmem
      simp at hmem
    simp only [hlast, hx, List.not_mem_nil, exists_false, false_and, or_false]

/-- A table has the names that were entered. -/
theorem contains_afterEdits : (afterEdits history).contains x = true ↔ .add x ∈ history := by
  induction history using List.reverseRecOn with
  | nil => simp [afterEdits, contains, find?, empty]
  | append_singleton history e ih =>
    rw [afterEdits_concat, List.mem_append, List.mem_singleton]
    cases e with
    | add y =>
      rw [Edit.apply, contains_add, ih, Edit.add.injEq, or_comm]
    | declare y type =>
      rw [Edit.apply, contains_declare, ih]
      simp

/-- **A name has a type** exactly if it was given one after it had been entered. -/
theorem typed_afterEdits :
    (afterEdits history).find? x = some (some .int) ↔ Types history x := by
  induction history using List.reverseRecOn with
  | nil => simp [afterEdits, find?, empty, not_types_nil]
  | append_singleton history e ih =>
    rw [afterEdits_concat, types_concat, ← ih, ← contains_afterEdits]
    cases e with
    | add y =>
      rw [Edit.apply]
      simp only [find?_add, reduceCtorEq, exists_false, and_false, or_false]
      cases (afterEdits history).find? x with
      | none => by_cases hx : x = y <;> simp [hx]
      | some v => simp
    | declare y type =>
      have hsome : Nonempty SourceType := ⟨type⟩
      rw [Edit.apply]
      simp only [find?_declare, contains, Edit.declare.injEq]
      by_cases hx : x = y
      · cases (afterEdits history).find? x <;> simp [hx]
      · simp [hx, Ne.symm hx]

/-! ## The order of names -/

/-- The numbers of the characters of a name. -/
def codePoints (name : String) : List Nat :=
  name.toList.map Char.toNat

theorem codePoints_lt (h : x < y) : codePoints x < codePoints y :=
  List.map_lt (fun _ _ hlt => hlt) (String.lt_iff.mp h)

/-- There are as many names as different ones were entered. -/
theorem size_afterEdits :
    (afterEdits history).size = (history.filterMap Edit.added?).toFinset.card := by
  have hnames : (afterEdits history).names.toFinset = (history.filterMap Edit.added?).toFinset := by
    ext x
    rw [List.mem_toFinset, List.mem_toFinset, mem_filterMap_added?, ← contains_iff,
      contains_afterEdits]
  rw [← hnames, List.toFinset_card_of_nodup (nodup_names _), names, List.length_map, size]

theorem count_names_afterEdits :
    (afterEdits history).names.count x = if .add x ∈ history then 1 else 0 := by
  rw [(nodup_names _).count]
  exact if_congr (contains_iff.symm.trans contains_afterEdits) rfl rfl

/-- Histories with the same names and the same typed names end in the same table. -/
theorem afterEdits_eq {history' : List Edit}
    (hnames : ∀ x, .add x ∈ history ↔ .add x ∈ history')
    (htyped : ∀ x, Types history x ↔ Types history' x) :
    afterEdits history = afterEdits history' := by
  refine eq_of_find?_eq fun x => find?_eq_of_iff ?_ ?_
  · rw [contains_afterEdits, contains_afterEdits, hnames]
  · rw [typed_afterEdits, typed_afterEdits, htyped]

end SymbolTable

open SymbolTable

/-- **What a symbol table remembers of its history.** It lists every name that was entered once, in
increasing order of code points; there are as many as different names were entered, and the table
answers for these and no others. A name has a type exactly if it was given one behind the first edit
that entered it. Entering a name again changes nothing, and neither does a type for a name that is
not there. So histories with the same names and the same typed names end in one table with one
listing, whatever their order and repetitions. -/
theorem table_of_edits (history : List Edit) :
    ((afterEdits history).names.Pairwise fun x y => codePoints x < codePoints y) ∧
    (∀ x, (afterEdits history).names.count x = if .add x ∈ history then 1 else 0) ∧
    (afterEdits history).size = (history.filterMap Edit.added?).toFinset.card ∧
    (∀ x, (afterEdits history).contains x = true ↔ .add x ∈ history) ∧
    (∀ x, (∃ v, (afterEdits history).find? x = some v) ↔ .add x ∈ history) ∧
    (∀ x, (afterEdits history).find? x = some (some .int) ↔ Types history x) ∧
    (∀ x, .add x ∈ history → afterEdits (history ++ [.add x]) = afterEdits history) ∧
    (∀ x type, .add x ∉ history →
      afterEdits (history ++ [.declare x type]) = afterEdits history) ∧
    ∀ history', (∀ x, .add x ∈ history ↔ .add x ∈ history') →
      (∀ x, Types history x ↔ Types history' x) →
        afterEdits history = afterEdits history' ∧
          (afterEdits history).render = (afterEdits history').render := by
  refine ⟨(afterEdits history).increasing.imp codePoints_lt, fun x => count_names_afterEdits,
    size_afterEdits, fun x => contains_afterEdits, fun x => ?_, fun x => typed_afterEdits,
    fun x hx => ?_, fun x type hx => ?_, fun history' hnames htyped => ?_⟩
  · rw [← contains_afterEdits, contains, Option.isSome_iff_exists]
  · rw [afterEdits_concat]
    exact add_of_contains (contains_afterEdits.mpr hx)
  · rw [afterEdits_concat]
    exact declare_of_not_contains fun hcontains => hx (contains_afterEdits.mp hcontains)
  · have heq := afterEdits_eq hnames htyped
    exact ⟨heq, by rw [heq]⟩

/-- Two histories of two names, of which one has a type. In the second a type comes too early, and
the other name is entered again behind its type. -/
theorem table_of_edits_reordered :
    afterEdits [.add "b", .add "a", .declare "b" .int] =
      afterEdits [.declare "a" .int, .add "b", .declare "b" .int, .add "b", .add "a"] ∧
    (afterEdits [.add "b", .add "a", .declare "b" .int]).render = "(a, null)\n(b, Int)\n" := by
  obtain ⟨-, -, -, -, -, -, -, -, hsame⟩ :=
    table_of_edits [.add "b", .add "a", .declare "b" .int]
  obtain ⟨heq, -⟩ :=
    hsame [.declare "a" .int, .add "b", .declare "b" .int, .add "b", .add "a"]
      (fun x => by simp) (fun x => by
        by_cases hb : x = "b"
        · simp [Types, hb]
        · by_cases ha : x = "a"
          · simp [Types, ha]
          · simp [Types, Ne.symm hb, Ne.symm ha])
  exact ⟨heq, by decide +kernel⟩

end StraightLine
