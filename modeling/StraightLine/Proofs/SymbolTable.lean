import Mathlib
import StraightLine.SymbolTable

/-!
# The names in a symbol table

Entering a name adds that name and no other, and giving a type adds none. So a table only grows.
Entering a name never takes a type away: it fills a gap, and where there is none it does nothing.

## Main results

* `SymbolTable.contains_iff` — a table contains the names that it lists
* `SymbolTable.contains_add`, `contains_declare` — what the operations do to the names
* `SymbolTable.find?_add`, `SymbolTable.find?_declare` — what they do to the types
-/

namespace StraightLine

namespace SymbolTable

variable {s : SymbolTable} {x y : String} {type : SourceType}

theorem contains_iff : s.contains x = true ↔ x ∈ s.names := by
  rw [contains, find?, names, Option.isSome_iff_ne_none, ne_eq, List.lookup_eq_none_iff,
    List.mem_map]
  constructor
  · intro h
    push Not at h
    obtain ⟨e, he, hx⟩ := h
    have hname : x = e.1 := by simpa using hx
    exact ⟨e, he, hname.symm⟩
  · rintro ⟨e, he, rfl⟩ h
    simpa using h e he

theorem contains_add : (s.add y).contains x = true ↔ x = y ∨ s.contains x = true := by
  rw [contains_iff, contains_iff]
  exact mem_names_insertName

theorem lookup_cons_eq (k : String) (v : Option SourceType)
    (es : List (String × Option SourceType)) :
    ((k, v) :: es).lookup x = if x = k then some v else es.lookup x := by
  by_cases hx : x = k
  · rw [hx, List.lookup_cons_self, if_pos rfl]
  · have hne : (x == k) = false := by simpa using hx
    rw [List.lookup_cons, hne, if_neg hx]

/-- In an increasing list, a name that is put in its place is found there, and all others are where
they were. -/
theorem lookup_insertName {es : List (String × Option SourceType)}
    (h : (es.map Prod.fst).Pairwise (· < ·)) :
    (insertName y es).lookup x = (es.lookup x).or (if x = y then some none else none) := by
  induction es with
  | nil => rw [insertName, lookup_cons_eq, List.lookup_nil, Option.none_or]
  | cons e es ih =>
    obtain ⟨k, v⟩ := e
    rw [List.map_cons, List.pairwise_cons] at h
    unfold insertName
    split
    · next hlt =>
      rw [lookup_cons_eq]
      by_cases hx : x = y
      · -- the list has only greater names
        have hnone : ((k, v) :: es).lookup x = none := by
          rw [List.lookup_eq_none_iff, hx, List.forall_mem_cons]
          refine ⟨by simpa using (String.ne_of_lt hlt), fun e he => ?_⟩
          have hgreater := String.lt_trans hlt (h.1 e.1 (List.mem_map_of_mem he))
          simpa using String.ne_of_lt hgreater
        rw [hnone, Option.none_or]
      · simp [hx]
    · split
      · next heq =>
        obtain rfl : y = k := heq
        by_cases hx : x = y <;> simp [lookup_cons_eq, hx]
      · next hne =>
        rw [lookup_cons_eq, lookup_cons_eq, ih h.2]
        by_cases hx : x = k <;> simp [hx]

theorem find?_add :
    (s.add y).find? x = (s.find? x).or (if x = y then some none else none) :=
  lookup_insertName s.increasing

theorem lookup_map_declare (es : List (String × Option SourceType)) :
    (es.map fun e => if e.1 = y then (e.1, some type) else e).lookup x =
      if x = y then (es.lookup x).map fun _ => some type else es.lookup x := by
  induction es with
  | nil => simp
  | cons e es ih =>
    obtain ⟨k, v⟩ := e
    rw [List.map_cons, lookup_cons_eq]
    by_cases hk : k = y
    · rw [if_pos hk, lookup_cons_eq]
      by_cases hx : x = k
      · rw [if_pos hx, if_pos hx, if_pos (hx.trans hk)]
        rfl
      · rw [if_neg hx, if_neg hx, ih]
    · rw [if_neg hk, lookup_cons_eq]
      by_cases hx : x = k
      · rw [if_pos hx, if_pos hx, if_neg (hx ▸ hk)]
      · rw [if_neg hx, if_neg hx, ih]

/-- Giving a type to a name changes what is found under that name, if anything is. -/
theorem find?_declare : (s.declare y type).find? x =
    if x = y then (s.find? x).map fun _ => some type else s.find? x :=
  lookup_map_declare s.entries

theorem names_declare : (s.declare y type).names = s.names := by
  rw [names, names, declare, List.map_map]
  refine List.map_congr_left fun e _ => ?_
  rw [Function.comp_apply]
  split <;> rfl

theorem contains_declare : (s.declare y type).contains x = true ↔ s.contains x = true := by
  rw [contains_iff, contains_iff, names_declare]

end SymbolTable

end StraightLine
