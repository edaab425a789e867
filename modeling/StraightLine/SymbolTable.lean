/-!
# Symbol tables

The names that a program mentions, each with its type once a declaration has given it one. There is
one flat scope and nothing is ever removed. A table lists its names in increasing order of code
points, and that order is part of the type: two tables with the same names and types are equal, and
their listings are the same text, however they came about.

## Main definitions

* `SymbolTable` — names with optional types, in increasing order
* `SymbolTable.add` — enter a name, untyped, unless it is there
* `SymbolTable.declare` — give a type to a name that is there
* `SymbolTable.find?` — look a name up
* `SymbolTable.render` — the listing

## Implementation notes

`find?` distinguishes an absent name, `none`, from one without a type, `some none`.
-/

namespace StraightLine

/-- The types of the source language. -/
inductive SourceType where
  /-- Signed integers of 32 bits. -/
  | int
  deriving DecidableEq, Repr

/-- The name of a type in listings. -/
def SourceType.name : SourceType → String
  | .int => "Int"

/-- Names with their types, in strictly increasing order. -/
structure SymbolTable where
  /-- The names, each with its type if it has one. -/
  entries : List (String × Option SourceType)
  /-- Every name stands before all greater ones, so no name is entered twice. -/
  increasing : (entries.map Prod.fst).Pairwise (· < ·)
  deriving DecidableEq

namespace SymbolTable

/-- The table without names. -/
def empty : SymbolTable where
  entries := []
  increasing := .nil

instance : Inhabited SymbolTable := ⟨empty⟩

/-! ## Entering names -/

/-- Put a name at its place in an increasing list, unless it is there. -/
def insertName (name : String) :
    List (String × Option SourceType) → List (String × Option SourceType)
  | [] => [(name, none)]
  | e :: es =>
    if name < e.1 then (name, none) :: e :: es
    else if name = e.1 then e :: es
    else e :: insertName name es

theorem mem_names_insertName {name x : String} {es : List (String × Option SourceType)} :
    x ∈ (insertName name es).map Prod.fst ↔ x = name ∨ x ∈ es.map Prod.fst := by
  induction es with
  | nil => simp [insertName]
  | cons e es ih =>
    unfold insertName
    split
    · simp
    · split
      · next h => simp [h]
      · simp only [List.map_cons, List.mem_cons, ih]
        exact or_left_comm

theorem increasing_insertName {name : String} {es : List (String × Option SourceType)}
    (h : (es.map Prod.fst).Pairwise (· < ·)) :
    ((insertName name es).map Prod.fst).Pairwise (· < ·) := by
  induction es with
  | nil => simp [insertName]
  | cons e es ih =>
    rw [List.map_cons, List.pairwise_cons] at h
    unfold insertName
    split
    · next hlt =>
      simp only [List.map_cons, List.pairwise_cons, List.mem_cons, forall_eq_or_imp]
      exact ⟨⟨hlt, fun x hx => String.lt_trans hlt (h.1 x hx)⟩, h⟩
    · next hge =>
      split
      · simpa using h
      · next hne =>
        rw [List.map_cons, List.pairwise_cons]
        refine ⟨fun x hx => ?_, ih h.2⟩
        rcases mem_names_insertName.1 hx with rfl | hx
        · exact Std.lt_of_le_of_ne hge (Ne.symm hne)
        · exact h.1 x hx

/-- Enter a name without a type. A name that is there keeps its type. -/
def add (name : String) (s : SymbolTable) : SymbolTable where
  entries := insertName name s.entries
  increasing := increasing_insertName s.increasing

/-! ## Giving types -/

/-- Give a type to a name; nothing happens if the name is not there. -/
def declare (name : String) (type : SourceType) (s : SymbolTable) : SymbolTable where
  entries := s.entries.map fun e => if e.1 = name then (e.1, some type) else e
  increasing := by
    have h : ∀ e : String × Option SourceType,
        (if e.1 = name then (e.1, some type) else e).1 = e.1 := fun e => by split <;> rfl
    simpa [List.map_map, Function.comp_def, h] using s.increasing

/-! ## Queries -/

/-- The type of a name, if the name is there and if it has one. -/
def find? (s : SymbolTable) (name : String) : Option (Option SourceType) :=
  s.entries.lookup name

/-- Whether a name is there. -/
def contains (s : SymbolTable) (name : String) : Bool :=
  (s.find? name).isSome

/-- The names, in increasing order. -/
def names (s : SymbolTable) : List String :=
  s.entries.map Prod.fst

/-- The number of names. -/
def size (s : SymbolTable) : Nat :=
  s.entries.length

/-- Whether there are no names. -/
def isEmpty (s : SymbolTable) : Bool :=
  s.entries.isEmpty

/-- One line of the listing. -/
def renderEntry (e : String × Option SourceType) : String :=
  "(" ++ e.1 ++ ", " ++ (e.2.map SourceType.name).getD "null" ++ ")\n"

/-- The listing: a line for every name, in increasing order. -/
def render (s : SymbolTable) : String :=
  String.join (s.entries.map renderEntry)

end SymbolTable

end StraightLine
