import Mathlib
import StraightLine.Files.FileSystem

/-!
# What paths are made of

A path is taken apart at its slashes, and what lies between is a name: it is not empty and has no
slash in it. Names put together with slashes are taken apart again into the same names. So the path
of a directory around another has the names one expects, and so has the path of a file inside one.

A path leads from location to location. The locations behind its first name, its second and so on
are its trail. A single dot leads nowhere new, so the directories that a path is inside of, where
dots are left out, lie on its trail.

## Main definitions

* `Path.IsName` — what can stand between slashes
* `FileSystem.trailFrom` — the locations on the way

## Main results

* `Path.ofString_render`, `Path.ofString_joinPath` — paths that are put together
* `FileSystem.mem_trailFrom` — a trail is made of the beginnings of a path
* `FileSystem.mem_trailFrom_of_components` — leaving out dots leads to no new location
-/

namespace StraightLine

/-! ## Parts between slashes -/

/-- A character other than a slash belongs to the first part. -/
theorem splitSlashes_cons_of_ne {c : Char} (h : c ≠ '/') (cs : List Char) :
    ∃ part parts, splitSlashes cs = part :: parts ∧
      splitSlashes (c :: cs) = (c :: part) :: parts := by
  rcases hsplit : splitSlashes cs with _ | ⟨part, parts⟩
  · cases cs with
    | nil => cases hsplit
    | cons d cs =>
      rw [splitSlashes] at hsplit
      split at hsplit
      · cases hsplit
      · split at hsplit <;> cases hsplit
  · exact ⟨part, parts, rfl, by rw [splitSlashes, if_neg h, hsplit]⟩

/-- A slash separates what is before it from what is behind it. -/
theorem splitSlashes_append (front back : List Char) :
    splitSlashes (front ++ '/' :: back) = splitSlashes front ++ splitSlashes back := by
  induction front with
  | nil => rfl
  | cons c front ih =>
    by_cases hc : c = '/'
    · subst hc
      rw [List.cons_append, splitSlashes, if_pos rfl, ih]
      rfl
    · obtain ⟨part, parts, hfront, hcons⟩ := splitSlashes_cons_of_ne hc front
      rw [List.cons_append, splitSlashes, if_neg hc, ih, hfront, hcons]
      rfl

theorem splitSlashes_of_not_mem {cs : List Char} (h : '/' ∉ cs) : splitSlashes cs = [cs] := by
  induction cs with
  | nil => rfl
  | cons c cs ih =>
    rw [List.mem_cons, not_or] at h
    rw [splitSlashes, if_neg (Ne.symm h.1), ih h.2]

theorem slash_not_mem_of_mem_splitSlashes {part cs : List Char} (h : part ∈ splitSlashes cs) :
    '/' ∉ part := by
  induction cs generalizing part with
  | nil =>
    obtain rfl := List.mem_singleton.mp h
    simp
  | cons c cs ih =>
    by_cases hc : c = '/'
    · rw [splitSlashes, if_pos hc] at h
      rcases List.mem_cons.mp h with rfl | h
      · simp
      · exact ih h
    · obtain ⟨first, parts, hcs, hcons⟩ := splitSlashes_cons_of_ne hc cs
      rw [hcons] at h
      rcases List.mem_cons.mp h with rfl | h
      · have hfirst := ih (hcs ▸ List.mem_cons_self ..)
        simp [Ne.symm hc, hfirst]
      · exact ih (hcs ▸ List.mem_cons_of_mem _ h)

namespace Path

/-! ## Names -/

/-- What can stand between slashes. -/
def IsName (name : String) : Prop :=
  name ≠ "" ∧ '/' ∉ name.toList

/-- The names in a text. -/
def namesOf (cs : List Char) : List String :=
  ((splitSlashes cs).filter (· ≠ [])).map String.ofList

theorem namesOf_append (front back : List Char) :
    namesOf (front ++ '/' :: back) = namesOf front ++ namesOf back := by
  rw [namesOf, splitSlashes_append, List.filter_append, List.map_append]
  rfl

@[simp] theorem namesOf_nil : namesOf [] = [] :=
  rfl

theorem IsName.toList_ne_nil {name : String} (h : IsName name) : name.toList ≠ [] :=
  fun hnil => h.1 (String.toList_eq_nil_iff.mp hnil)

theorem IsName.namesOf_eq {name : String} (h : IsName name) : namesOf name.toList = [name] := by
  rw [namesOf, splitSlashes_of_not_mem h.2, List.filter_cons_of_pos (by simpa using h.1)]
  simp

theorem isName_of_mem_names {path name : String} (h : name ∈ (ofString path).names) :
    IsName name := by
  obtain ⟨part, hpart, rfl⟩ := List.mem_map.mp h
  obtain ⟨hpart, hne⟩ := List.mem_filter.mp hpart
  refine ⟨?_, ?_⟩
  · simpa using hne
  · rw [String.toList_ofList]
    exact slash_not_mem_of_mem_splitSlashes hpart

/-- Only the empty path has no names and no root to start at. -/
theorem leads_iff {path : String} :
    (ofString path).absolute = true ∨ (ofString path).names ≠ [] ↔ path ≠ "" := by
  constructor
  · rintro h rfl
    rcases h with h | h
    · cases h
    · exact h rfl
  · intro hne
    rcases hcs : path.toList with _ | ⟨c, cs⟩
    · exact absurd (String.toList_eq_nil_iff.mp hcs) hne
    · by_cases hc : c = '/'
      · subst hc
        exact .inl (by rw [ofString, hcs]; rfl)
      · obtain ⟨part, parts, -, hcons⟩ := splitSlashes_cons_of_ne hc cs
        refine .inr ?_
        rw [ofString, hcs, hcons, List.filter_cons_of_pos (by simp)]
        exact List.cons_ne_nil _ _

theorem mem_names_of_mem_components {p : Path} {name : String} (h : name ∈ p.components) :
    name ∈ p.names := by
  rw [components] at h
  split at h
  · cases h
  · next first names hnames =>
    rw [hnames]
    dsimp only at h
    split at h
    · exact List.mem_cons_of_mem _ (List.mem_filter.mp h).1
    · rcases List.mem_cons.mp h with rfl | h
      · exact List.mem_cons_self ..
      · exact List.mem_cons_of_mem _ (List.mem_filter.mp h).1

/-! ## Paths that are put together -/

/-- Names joined with slashes. -/
def joined (names : List String) : List Char :=
  ['/'].intercalate (names.map String.toList)

theorem joined_cons_cons (name next : String) (names : List String) :
    joined (name :: next :: names) = name.toList ++ '/' :: joined (next :: names) := by
  simp [joined]

theorem namesOf_joined {names : List String} (h : ∀ name ∈ names, IsName name) :
    namesOf (joined names) = names := by
  induction names with
  | nil => rfl
  | cons name names ih =>
    have hname := h name (List.mem_cons_self ..)
    cases names with
    | nil => simpa [joined] using hname.namesOf_eq
    | cons next names =>
      rw [joined_cons_cons, namesOf_append, hname.namesOf_eq,
        ih fun n hn => h n (List.mem_cons_of_mem _ hn)]
      rfl

/-- Names that are joined do not begin with a slash. -/
theorem head?_joined_ne {names : List String} (h : ∀ name ∈ names, IsName name) :
    (joined names).head? ≠ some '/' := by
  cases names with
  | nil => simp [joined]
  | cons name names =>
    have hname := h name (List.mem_cons_self ..)
    have hfirst : (joined (name :: names)).head? = name.toList.head? := by
      cases names with
      | nil => simp [joined]
      | cons next names =>
        rw [joined_cons_cons, List.head?_append_of_ne_nil _ hname.toList_ne_nil]
    rw [hfirst]
    exact fun hhead => hname.2 (List.mem_of_mem_head? hhead)

theorem ofString_of_toList {path : String} {cs : List Char} (h : path.toList = cs) :
    ofString path = ⟨cs.head? == some '/', namesOf cs, cs.getLast? == some '/'⟩ := by
  rw [← h]
  rfl

/-- **A path that is put together is taken apart into the same names.** -/
theorem ofString_render (absolute : Bool) {names : List String} (h : ∀ name ∈ names, IsName name) :
    (ofString (render ⟨absolute, names, false⟩)).absolute = absolute ∧
      (ofString (render ⟨absolute, names, false⟩)).names = names := by
  cases absolute with
  | false =>
    have hrender : (render ⟨false, names, false⟩).toList = joined names := by
      simp [render, joined]
    rw [ofString_of_toList hrender]
    exact ⟨beq_eq_false_iff_ne.mpr (head?_joined_ne h), namesOf_joined h⟩
  | true =>
    have hrender : (render ⟨true, names, false⟩).toList = [] ++ '/' :: joined names := by
      simp [render, joined]
    rw [ofString_of_toList hrender]
    refine ⟨rfl, ?_⟩
    rw [namesOf_append, namesOf_joined h]
    rfl

/-- **The path of a file inside a directory** has one more name than that of the directory. -/
theorem ofString_joinPath (dir : String) {name : String} (h : IsName name) :
    ofString (joinPath dir name) =
      ⟨(ofString dir).absolute, (ofString dir).names ++ [name], false⟩ := by
  have hlast : (name.toList.getLast? == some '/') = false :=
    beq_eq_false_iff_ne.mpr fun hl => h.2 (List.mem_of_getLast? hl)
  by_cases hempty : dir = ""
  · have hhead : (name.toList.head? == some '/') = false :=
      beq_eq_false_iff_ne.mpr fun hh => h.2 (List.mem_of_mem_head? hh)
    rw [joinPath, if_pos (.inl hempty), hempty, String.empty_append, ofString_of_toList rfl, hhead,
      h.namesOf_eq, hlast]
    rfl
  · have hnil : dir.toList ≠ [] := fun hnil => hempty (String.toList_eq_nil_iff.mp hnil)
    -- either way there is one slash between the directory and the name
    have hslash : ∃ front, (joinPath dir name).toList = front ++ '/' :: name.toList ∧
        namesOf front = (ofString dir).names ∧
        (front ++ ['/']).head? = dir.toList.head? := by
      by_cases htrailing : (ofString dir).trailingSlash
      · obtain ⟨front, hfront⟩ := List.getLast?_eq_some_iff.mp (eq_of_beq htrailing)
        refine ⟨front, ?_, ?_, by rw [hfront]⟩
        · rw [joinPath, if_pos (.inr htrailing), String.toList_append, hfront]
          simp
        · rw [ofString_of_toList hfront, namesOf_append, namesOf_nil, List.append_nil]
      · refine ⟨dir.toList, ?_, rfl, List.head?_append_of_ne_nil _ hnil⟩
        rw [joinPath, if_neg (by simp [hempty, htrailing])]
        simp
    obtain ⟨front, htext, hnames, hhead⟩ := hslash
    have hfirst : (front ++ '/' :: name.toList).head? = dir.toList.head? := by
      rw [← hhead]
      cases front <;> rfl
    have hend : (front ++ '/' :: name.toList).getLast? = name.toList.getLast? := by
      rw [List.append_cons, List.getLast?_append_of_ne_nil _ h.toList_ne_nil]
    rw [ofString_of_toList htext, hfirst, namesOf_append, hnames, h.namesOf_eq, hend, hlast]
    rfl

/-! ## Beginnings -/

theorem beginnings_cons_cons {α : Type} (a b : α) (as : List α) :
    beginnings (a :: b :: as) = [a] :: (beginnings (b :: as)).map (a :: ·) :=
  rfl

/-- The directories around a list of names, from the inside out. -/
theorem reverse_beginnings_concat {α : Type} {as : List α} (hne : as ≠ []) (a : α) :
    (beginnings (as ++ [a])).reverse = as :: (beginnings as).reverse := by
  have hconcat : beginnings (as ++ [a]) = beginnings as ++ [as] := by
    induction as with
    | nil => exact absurd rfl hne
    | cons b as ih =>
      cases as with
      | nil => rfl
      | cons c as =>
        rw [List.cons_append, List.cons_append, beginnings_cons_cons, ← List.cons_append,
          ih (List.cons_ne_nil _ _), beginnings_cons_cons]
        simp
  rw [hconcat, List.reverse_concat]

theorem prefix_of_mem_beginnings {α : Type} {as bs : List α} (h : bs ∈ beginnings as) :
    bs ≠ [] ∧ bs <+: as := by
  induction as generalizing bs with
  | nil => cases h
  | cons a as ih =>
    cases as with
    | nil => cases h
    | cons b as =>
      rw [beginnings_cons_cons] at h
      rcases List.mem_cons.mp h with rfl | h
      · exact ⟨List.cons_ne_nil _ _, List.prefix_iff_eq_take.mpr rfl⟩
      · obtain ⟨cs, hcs, rfl⟩ := List.mem_map.mp h
        exact ⟨List.cons_ne_nil _ _, List.prefix_cons_inj a |>.mpr (ih hcs).2⟩

end Path

/-! ## Trails -/

namespace FileSystem

/-- The locations that names lead to from a location, one name after another. -/
def trailFrom : Location → List String → List Location
  | _, [] => []
  | loc, name :: names => follow loc name :: trailFrom (follow loc name) names

theorem mem_trailFrom {loc start : Location} {names : List String} :
    loc ∈ trailFrom start names ↔ ∃ ns, ns ≠ [] ∧ ns <+: names ∧ ns.foldl follow start = loc := by
  induction names generalizing start with
  | nil =>
    simp [trailFrom]
  | cons name names ih =>
    rw [trailFrom, List.mem_cons, ih]
    constructor
    · rintro (rfl | ⟨ns, hne, hns, rfl⟩)
      · exact ⟨[name], List.cons_ne_nil _ _, List.prefix_iff_eq_take.mpr rfl, rfl⟩
      · exact ⟨name :: ns, List.cons_ne_nil _ _, (List.prefix_cons_inj name).mpr hns, rfl⟩
    · rintro ⟨ns, hne, hns, rfl⟩
      cases ns with
      | nil => exact absurd rfl hne
      | cons n ns =>
        obtain ⟨rfl, hrest⟩ := List.cons_prefix_cons.mp hns
        by_cases hnil : ns = []
        · exact .inl (by rw [hnil]; rfl)
        · exact .inr ⟨ns, hnil, hrest, rfl⟩

theorem trailFrom_append (start : Location) (names more : List String) :
    trailFrom start (names ++ more) =
      trailFrom start names ++ trailFrom (names.foldl follow start) more := by
  induction names generalizing start with
  | nil => rfl
  | cons name names ih =>
    rw [List.cons_append, trailFrom, trailFrom, ih, List.foldl_cons, List.cons_append]

/-- Without its end, the way of a path is that of a path with one name less. -/
theorem dropLast_trailFrom_concat (start : Location) (names : List String) (name : String) :
    (start :: trailFrom start (names ++ [name])).dropLast = start :: trailFrom start names := by
  rw [trailFrom_append, ← List.cons_append, trailFrom, trailFrom, List.dropLast_concat]

@[simp] theorem follow_dot (loc : Location) : follow loc "." = loc :=
  rfl

/-- A single dot leads nowhere new. -/
theorem foldl_follow_filter (start : Location) (names : List String) :
    (names.filter (· ≠ ".")).foldl follow start = names.foldl follow start := by
  induction names generalizing start with
  | nil => rfl
  | cons name names ih =>
    by_cases hdot : name = "."
    · subst hdot
      rw [List.filter_cons_of_neg (by simp), ih, List.foldl_cons, follow_dot]
    · rw [List.filter_cons_of_pos (by simpa using hdot), List.foldl_cons, List.foldl_cons, ih]

/-- What is left of a list begins with what is left of a beginning. -/
theorem exists_prefix_of_filter {names bs : List String} (h : bs <+: names.filter (· ≠ ".")) :
    ∃ ns, ns <+: names ∧ ns.filter (· ≠ ".") = bs := by
  induction names generalizing bs with
  | nil =>
    obtain rfl := List.prefix_nil.mp h
    exact ⟨[], List.nil_prefix, rfl⟩
  | cons name names ih =>
    by_cases hdot : name = "."
    · rw [List.filter_cons_of_neg (by simp [hdot])] at h
      obtain ⟨ns, hns, rfl⟩ := ih h
      exact ⟨name :: ns, (List.prefix_cons_inj name).mpr hns,
        List.filter_cons_of_neg (by simp [hdot])⟩
    · rw [List.filter_cons_of_pos (by simpa using hdot)] at h
      cases bs with
      | nil => exact ⟨[], List.nil_prefix, rfl⟩
      | cons b bs =>
        obtain ⟨rfl, hbs⟩ := List.cons_prefix_cons.mp h
        obtain ⟨ns, hns, rfl⟩ := ih hbs
        exact ⟨b :: ns, (List.prefix_cons_inj b).mpr hns,
          List.filter_cons_of_pos (by simpa using hdot)⟩

/-- **The names that a path is inside of lead to locations on its trail.** -/
theorem mem_trailFrom_of_components {p : Path} {bs : List String} (hne : bs ≠ [])
    (h : bs <+: p.components) (start : Location) :
    bs.foldl follow start ∈ trailFrom start p.names := by
  have hfiltered : ∀ (names : List String) (loc : Location) (bs : List String), bs ≠ [] →
      bs <+: names.filter (· ≠ ".") → bs.foldl follow loc ∈ trailFrom loc names := by
    intro names loc bs hne hbs
    obtain ⟨ns, hns, rfl⟩ := exists_prefix_of_filter hbs
    refine mem_trailFrom.mpr ⟨ns, ?_, hns, (foldl_follow_filter loc ns).symm⟩
    rintro rfl
    exact hne rfl
  rw [Path.components] at h
  split at h
  · exact absurd (List.prefix_nil.mp h) hne
  · next name names hnames =>
    rw [hnames, trailFrom]
    dsimp only at h
    split at h
    · next hdot =>
      rw [hdot.1, follow_dot]
      exact List.mem_cons_of_mem _ (hfiltered names start bs hne h)
    · cases bs with
      | nil => exact absurd rfl hne
      | cons b bs =>
        obtain ⟨rfl, hbs⟩ := List.cons_prefix_cons.mp h
        by_cases hnil : bs = []
        · subst hnil
          exact List.mem_cons_self ..
        · exact List.mem_cons_of_mem _ (hfiltered names _ bs hnil hbs)

theorem foldl_follow_components (p : Path) (start : Location) :
    p.components.foldl follow start = p.names.foldl follow start := by
  rw [Path.components]
  split
  · next hnames => rw [hnames]
  · next name names hnames =>
    rw [hnames, List.foldl_cons]
    dsimp only
    split
    · next hdot => rw [foldl_follow_filter, hdot.1, follow_dot]
    · rw [List.foldl_cons, foldl_follow_filter]

theorem components_append {absolute slash : Bool} {ns : List String} (hne : ns ≠ [])
    (more : List String) : (⟨absolute, ns ++ more, slash⟩ : Path).components =
      (⟨absolute, ns, slash⟩ : Path).components ++ more.filter (· ≠ ".") := by
  cases ns with
  | nil => exact absurd rfl hne
  | cons name ns =>
    rw [List.cons_append, Path.components, Path.components]
    dsimp only
    split <;> simp

/-- Before its end, a path passes only what it is inside of, unless it ends in a dot. -/
theorem mem_way_of_mem_dropLast {p : Path} {loc start : Location}
    (hend : p.names.length ≤ 1 ∨ p.names.getLast? ≠ some ".")
    (h : loc ∈ (start :: trailFrom start p.names).dropLast) :
    loc ∈ start :: trailFrom start p.components.dropLast := by
  obtain ⟨absolute, names, slash⟩ := p
  dsimp only at hend h
  rcases List.eq_nil_or_concat' names with rfl | ⟨init, last, rfl⟩
  · cases h
  · rw [dropLast_trailFrom_concat] at h
    rcases List.mem_cons.mp h with rfl | h
    · exact List.mem_cons_self ..
    · obtain ⟨ns, hne, ⟨more, rfl⟩, rfl⟩ := mem_trailFrom.mp h
      have hlast : last ≠ "." := by
        rintro rfl
        have hpos := List.length_pos_of_ne_nil hne
        simp at hend
        omega
      rw [List.append_assoc, components_append hne, List.filter_append,
        List.filter_cons_of_pos (by simpa using hlast), List.filter_nil, ← List.append_assoc,
        List.dropLast_concat, ← foldl_follow_components ⟨absolute, ns, slash⟩]
      by_cases hnil : (⟨absolute, ns, slash⟩ : Path).components = []
      · rw [hnil]
        exact List.mem_cons_self ..
      · exact List.mem_cons_of_mem _
          (mem_trailFrom.mpr ⟨_, hnil, List.prefix_append _ _, rfl⟩)

end FileSystem

end StraightLine
