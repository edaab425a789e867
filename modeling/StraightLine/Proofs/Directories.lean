import Mathlib
import StraightLine.Files.Host
import StraightLine.Proofs.Action
import StraightLine.Proofs.Paths

/-!
# Making directories

A path leads somewhere if every location on the way is a directory. To make a directory together
with those around it, one tries to make it, makes those around it if one of them is missing, and
tries again. Whatever comes of that, nothing is lost: only where there was nothing, and only on the
trail of the path, there may now be a directory. And if it succeeds, all of the trail is made of
directories.

It succeeds if the way starts at a directory and no file is in the way, except that a path may end
in a single dot behind other names: such a path asks for a directory that is there.

## Main definitions

* `FileSystem.start`, `FileSystem.trail`, `FileSystem.place` — where a path starts, the locations on
  its way, and the last of them
* `FileSystem.Grows` — some directories have been added

## Main results

* `FileSystem.resolve_eq_ok_iff`, `FileSystem.isDir_iff` — where paths lead
* `World.run_createDirs` — what making directories does
* `World.run_createDirs_eq_ok_iff` — when it succeeds
-/

namespace StraightLine

/-- Behind a step with a known result, the rest runs from the state it left. -/
theorem run_bind_of_run {σ α β : Type} {x : StateM σ α} {s s' : σ} {a : α}
    (h : x.run s = (a, s')) (f : α → StateM σ β) : (x >>= f).run s = (f a).run s' := by
  rw [StateT.run_bind, h]
  rfl

namespace FileSystem

/-! ## Where paths lead -/

/-- Where a path starts. -/
def start (fs : FileSystem) (path : String) : Location :=
  if (Path.ofString path).absolute then [] else fs.workingDir

/-- The locations on the way of a path, behind its start. -/
def trail (fs : FileSystem) (path : String) : List Location :=
  trailFrom (fs.start path) (Path.ofString path).names

/-- The location that a path leads to. -/
def place (fs : FileSystem) (path : String) : Location :=
  (Path.ofString path).names.foldl follow (fs.start path)

variable {fs fs' fs'' : FileSystem} {path : String} {loc base : Location} {names : List String}

/-- A way ends where its names lead to. -/
theorem dropLast_concat_trailFrom (base : Location) (names : List String) :
    (base :: trailFrom base names).dropLast ++ [names.foldl follow base] =
      base :: trailFrom base names := by
  induction names generalizing base with
  | nil => rfl
  | cons name names ih =>
    rw [trailFrom, List.dropLast_cons_cons, List.cons_append, List.foldl_cons, ih]

theorem resolveFrom_eq_ok_iff : fs.resolveFrom base names = .ok loc ↔
    (∀ m ∈ (base :: trailFrom base names).dropLast, fs.entry? m = some .directory) ∧
      names.foldl follow base = loc := by
  induction names generalizing base with
  | nil => simp [resolveFrom, trailFrom]
  | cons name names ih =>
    rw [resolveFrom, trailFrom, List.dropLast_cons_cons, List.forall_mem_cons, List.foldl_cons]
    rcases hentry : fs.entry? base with _ | ⟨contents⟩ | ⟨⟩
    · simp
    · simp
    · simp [ih]

/-- Names that lead nowhere meet a gap or a file. -/
theorem resolveFrom_eq_error {e : FileError} (h : fs.resolveFrom base names = .error e) :
    ∃ m ∈ (base :: trailFrom base names).dropLast, (e = .notFound ∧ fs.entry? m = none) ∨
      (e = .notDirectory ∧ ∃ contents, fs.entry? m = some (.file contents)) := by
  induction names generalizing base with
  | nil => cases h
  | cons name names ih =>
    rw [resolveFrom] at h
    rw [trailFrom, List.dropLast_cons_cons]
    rcases hentry : fs.entry? base with _ | ⟨contents⟩ | ⟨⟩
    · rw [hentry] at h
      cases h
      exact ⟨base, List.mem_cons_self .., .inl ⟨rfl, hentry⟩⟩
    · rw [hentry] at h
      cases h
      exact ⟨base, List.mem_cons_self .., .inr ⟨rfl, contents, hentry⟩⟩
    · rw [hentry] at h
      obtain ⟨m, hm, hcase⟩ := ih h
      exact ⟨m, List.mem_cons_of_mem _ hm, hcase⟩

/-- A path is followed name by name. The empty path leads nowhere. -/
theorem resolve_eq (fs : FileSystem) (path : String) :
    fs.resolve path = if path = "" then .error .notFound
      else fs.resolveFrom (fs.start path) (Path.ofString path).names := by
  by_cases hempty : path = ""
  · subst hempty
    rfl
  · have hleads := Path.leads_iff.mpr hempty
    rw [resolve, start, if_neg hempty]
    cases habsolute : (Path.ofString path).absolute with
    | true => rfl
    | false => simp_all

theorem resolve_eq_ok_iff : fs.resolve path = .ok loc ↔ path ≠ "" ∧
    (∀ m ∈ (fs.start path :: fs.trail path).dropLast, fs.entry? m = some .directory) ∧
      fs.place path = loc := by
  rw [resolve_eq]
  split
  · next hempty => simp [hempty]
  · next hne =>
    rw [resolveFrom_eq_ok_iff, trail, place]
    exact (and_iff_right hne).symm

/-- A path that leads nowhere is empty or meets a gap or a file. -/
theorem resolve_eq_error {e : FileError} (h : fs.resolve path = .error e) :
    (e = .notFound ∧ (path = "" ∨
      ∃ m ∈ (fs.start path :: fs.trail path).dropLast, fs.entry? m = none)) ∨
    (e = .notDirectory ∧ ∃ m ∈ (fs.start path :: fs.trail path).dropLast, ∃ contents,
      fs.entry? m = some (.file contents)) := by
  rw [resolve_eq] at h
  split at h
  · next hempty =>
    cases h
    exact .inl ⟨rfl, .inl hempty⟩
  · obtain ⟨m, hm, ⟨rfl, hnone⟩ | ⟨rfl, hfile⟩⟩ := resolveFrom_eq_error h
    · exact .inl ⟨rfl, .inr ⟨m, hm, hnone⟩⟩
    · exact .inr ⟨rfl, m, hm, hfile⟩

/-- Everything on the way of a path is what comes before the end, and the end. -/
theorem forall_mem_way {P : Location → Prop} : (∀ m ∈ fs.start path :: fs.trail path, P m) ↔
    (∀ m ∈ (fs.start path :: fs.trail path).dropLast, P m) ∧ P (fs.place path) := by
  have hway := dropLast_concat_trailFrom (fs.start path) (Path.ofString path).names
  rw [trail, place]
  generalize (fs.start path :: trailFrom (fs.start path) (Path.ofString path).names) = way at hway
  generalize way.dropLast = front at hway ⊢
  subst hway
  simp [or_imp, forall_and]

/-- **A path leads to a directory** if everything on its way is one. -/
theorem isDir_iff : fs.isDir path = true ↔ path ≠ "" ∧
    ∀ m ∈ fs.start path :: fs.trail path, fs.entry? m = some .directory := by
  rw [forall_mem_way, isDir]
  rcases hresolve : fs.resolve path with e | loc
  · refine iff_of_false nofun fun ⟨hne, hway, _⟩ => ?_
    have hok := resolve_eq_ok_iff.mpr ⟨hne, hway, rfl⟩
    rw [hresolve] at hok
    cases hok
  · obtain ⟨hne, hway, rfl⟩ := resolve_eq_ok_iff.mp hresolve
    dsimp only
    rcases fs.entry? (fs.place path) with _ | ⟨contents⟩ | ⟨⟩
    · simp
    · simp
    · simpa using ⟨hne, hway⟩

/-! ## The directories around a path -/

/-- The path of some of the names around a path starts where that path does. -/
theorem start_render (fs : FileSystem) (path : String) {ns : List String}
    (h : ∀ name ∈ ns, Path.IsName name) :
    fs.start (Path.render ⟨(Path.ofString path).absolute, ns, false⟩) = fs.start path ∧
      fs.trail (Path.render ⟨(Path.ofString path).absolute, ns, false⟩) =
        trailFrom (fs.start path) ns ∧
      fs.place (Path.render ⟨(Path.ofString path).absolute, ns, false⟩) =
        ns.foldl follow (fs.start path) := by
  obtain ⟨habsolute, hnames⟩ := Path.ofString_render (Path.ofString path).absolute h
  have hstart : fs.start (Path.render ⟨(Path.ofString path).absolute, ns, false⟩) =
      fs.start path := by
    rw [start, habsolute, start]
  rw [trail, place, hstart, hnames]
  exact ⟨rfl, rfl, rfl⟩

theorem isName_of_prefix_components {ns : List String}
    (h : ns <+: (Path.ofString path).components) : ∀ name ∈ ns, Path.IsName name := fun _ hname =>
  Path.isName_of_mem_names (Path.mem_names_of_mem_components (h.subset hname))

/-- The paths around a path, the path itself left out. -/
def enclosing (path : String) : List String :=
  (Path.beginnings (Path.ofString path).components).reverse.map fun ns =>
    Path.render ⟨(Path.ofString path).absolute, ns, false⟩

theorem ancestors_eq (path : String) : Path.ancestors path =
    if (Path.ofString path).components = [] then [] else path :: enclosing path := by
  rw [Path.ancestors, enclosing]
  split
  · next hnil => rw [if_pos hnil]
  · next hne => rw [if_neg hne]

/-- The directories around a path start where it does, and their trails are parts of its trail. -/
theorem trail_of_mem_enclosing (fs : FileSystem) {dir : String} (h : dir ∈ enclosing path) :
    (Path.ofString dir).names ≠ [] ∧ fs.start dir = fs.start path ∧
      fs.trail dir ⊆ fs.trail path := by
  obtain ⟨ns, hns, rfl⟩ := List.mem_map.mp h
  obtain ⟨hnil, hinit⟩ := Path.prefix_of_mem_beginnings (List.mem_reverse.mp hns)
  have hnames := isName_of_prefix_components hinit
  obtain ⟨hstart, htrail, -⟩ := start_render fs path hnames
  refine ⟨?_, hstart, ?_⟩
  · rwa [(Path.ofString_render _ hnames).2]
  · rw [htrail]
    intro loc hloc
    obtain ⟨bs, hne, hbs, rfl⟩ := mem_trailFrom.mp hloc
    exact mem_trailFrom_of_components hne (hbs.trans hinit) _

/-- A trail ends at the place of its path. -/
theorem place_mem_trail (hne : (Path.ofString path).names ≠ []) : fs.place path ∈ fs.trail path :=
  mem_trailFrom.mpr ⟨_, hne, List.prefix_refl _, rfl⟩

/-- **The directories around a path lie on its trail.** -/
theorem place_mem_trail_of_ancestors (fs : FileSystem) {dir : String}
    (h : dir ∈ Path.ancestors path) : fs.place dir ∈ fs.trail path := by
  rw [ancestors_eq] at h
  split at h
  · cases h
  · next hcomponents =>
    rcases List.mem_cons.mp h with rfl | h
    · refine place_mem_trail fun hnil => hcomponents ?_
      rw [Path.components, hnil]
    · obtain ⟨hne, -, hsub⟩ := trail_of_mem_enclosing fs h
      exact hsub (place_mem_trail hne)

/-- Only a path without names but dots has no directories around it, and it starts at the root. -/
theorem components_eq_nil {p : Path} (h : p.components = []) :
    (p.names = [] ∨ p.absolute = true) ∧ p.names.filter (· ≠ ".") = [] := by
  rw [Path.components] at h
  split at h
  · next hnames => exact ⟨.inl hnames, by rw [hnames]; rfl⟩
  · next name names hnames =>
    dsimp only at h
    split at h
    · next hdot =>
      refine ⟨.inr hdot.2, ?_⟩
      rw [hnames, List.filter_cons_of_neg (by simp [hdot.1]), h]
    · cases h

theorem start_of_components_eq_nil (hnone : (Path.ofString path).components = [])
    (hne : path ≠ "") : fs.start path = [] := by
  have habsolute : (Path.ofString path).absolute = true := by
    rcases Path.leads_iff.mpr hne with habsolute | hnames
    · exact habsolute
    · exact (components_eq_nil hnone).1.resolve_left hnames
  rw [start, if_pos habsolute]

/-- A path without directories around it stays at the root. -/
theorem eq_nil_of_mem_trail (hnone : (Path.ofString path).components = [])
    (h : loc ∈ fs.trail path) : loc = [] := by
  obtain ⟨ns, hne, hinit, rfl⟩ := mem_trailFrom.mp h
  have hpath : path ≠ "" := by
    rintro rfl
    exact hne (List.prefix_nil.mp hinit)
  have hdots : ns.filter (· ≠ ".") = [] := by
    have hall := (components_eq_nil hnone).2
    rw [List.filter_eq_nil_iff] at hall ⊢
    exact fun n hn => hall n (hinit.subset hn)
  rw [← foldl_follow_filter, hdots]
  exact start_of_components_eq_nil hnone hpath

/-- Each of the directories around a path is inside of the next, and the last is inside of the
start. -/
theorem isChain_render {ns : List String} (hne : ns ≠ []) (h : ∀ name ∈ ns, Path.IsName name)
    (fs : FileSystem) (path : String) :
    let dirs := (ns :: (Path.beginnings ns).reverse).map fun ns =>
      Path.render ⟨(Path.ofString path).absolute, ns, false⟩
    (dirs.IsChain fun inner outer => ∀ m ∈ (fs.start inner :: fs.trail inner).dropLast,
      m ∈ fs.start outer :: fs.trail outer) ∧
    ∀ dir ∈ dirs.getLast?, ∀ m ∈ (fs.start dir :: fs.trail dir).dropLast, m = fs.start dir := by
  induction ns using List.reverseRecOn with
  | nil => exact absurd rfl hne
  | append_singleton ns name ih =>
    obtain ⟨hstart, htrail, -⟩ := start_render fs path h
    by_cases hnil : ns = []
    · subst hnil
      refine ⟨.singleton _, fun dir hdir m hm => ?_⟩
      obtain rfl : Path.render _ = dir := Option.some.inj hdir
      rw [htrail, hstart, dropLast_trailFrom_concat] at hm
      rw [hstart]
      simpa [trailFrom] using hm
    · have hns : ∀ n ∈ ns, Path.IsName n := fun n hn => h n (List.mem_append_left _ hn)
      obtain ⟨hstart', htrail', -⟩ := start_render fs path hns
      obtain ⟨hchain, hlast⟩ := ih hnil hns
      rw [Path.reverse_beginnings_concat hnil, List.map_cons]
      refine ⟨.cons_cons ?_ hchain, by simpa using hlast⟩
      intro m hm
      rwa [htrail, hstart, dropLast_trailFrom_concat, ← htrail', ← hstart'] at hm

/-- So is the path itself, unless it ends in a single dot behind other names. -/
theorem isChain_enclosing (fs : FileSystem) (hcomponents : (Path.ofString path).components ≠ [])
    (hend : (Path.ofString path).names.length ≤ 1 ∨
      (Path.ofString path).names.getLast? ≠ some ".") :
    ((path :: enclosing path).IsChain fun inner outer =>
      ∀ m ∈ (fs.start inner :: fs.trail inner).dropLast, m ∈ fs.start outer :: fs.trail outer) ∧
    ∀ dir ∈ (path :: enclosing path).getLast?,
      ∀ m ∈ (fs.start dir :: fs.trail dir).dropLast, m = fs.start dir := by
  obtain ⟨ns, name, hconcat⟩ :=
    (List.eq_nil_or_concat' (Path.ofString path).components).resolve_left hcomponents
  have hinside : ∀ m ∈ (fs.start path :: fs.trail path).dropLast,
      m ∈ fs.start path :: trailFrom (fs.start path) ns := by
    intro m hm
    have hway := mem_way_of_mem_dropLast hend hm
    rwa [hconcat, List.dropLast_concat] at hway
  by_cases hnil : ns = []
  · subst hnil
    rw [enclosing, hconcat]
    refine ⟨.singleton path, fun dir hdir m hm => ?_⟩
    obtain rfl : path = dir := Option.some.inj hdir
    simpa [trailFrom] using hinside m hm
  · have hnames := isName_of_prefix_components (hconcat ▸ List.prefix_append ns [name])
    obtain ⟨hstart, htrail, -⟩ := start_render fs path hnames
    obtain ⟨hchain, hlast⟩ := isChain_render hnil hnames fs path
    rw [enclosing, hconcat, Path.reverse_beginnings_concat hnil]
    refine ⟨.cons_cons ?_ hchain, by simpa using hlast⟩
    rwa [htrail, hstart]

/-! ## What is put where -/

theorem ne_nil_of_not_directory {x : Option Entry} (h : fs.entry? loc = x)
    (hx : x ≠ some .directory) : loc ≠ [] := by
  rintro rfl
  exact hx h.symm

/-- Putting something at a location changes that location and no other. -/
theorem entry?_put (hloc : loc ≠ []) (e : Entry) (m : Location) :
    entry? (fs.put loc e) m = if m = loc then some e else fs.entry? m := by
  unfold entry? put
  by_cases hm : m = loc
  · subst hm
    rw [if_neg hloc, if_pos rfl, List.lookup_cons_self]
  · have hother : (fs.entries.filter (·.1 ≠ loc)).lookup m = fs.entries.lookup m := by
      induction fs.entries with
      | nil => rfl
      | cons e es ih =>
        by_cases he : e.1 = loc
        · have hne : (m == e.1) = false := by simpa [he] using hm
          rw [List.filter_cons_of_neg (by simp [he]), ih, List.lookup_cons, hne]
        · rw [List.filter_cons_of_pos (by simpa using he), List.lookup_cons, List.lookup_cons, ih]
    have hne : (m == loc) = false := by simpa using hm
    rw [if_neg hm, List.lookup_cons, hne, hother]

/-- **Some directories have been added**, at some of the places, where there was nothing. All else
is as it was. -/
structure Grows (places : List Location) (fs fs' : FileSystem) : Prop where
  /-- Relative paths start where they did. -/
  workingDir : fs'.workingDir = fs.workingDir
  /-- What is where. -/
  entry?_eq : ∀ loc, fs'.entry? loc = fs.entry? loc ∨
    loc ∈ places ∧ fs.entry? loc = none ∧ fs'.entry? loc = some .directory

namespace Grows

variable {places more : List Location}

theorem refl (places : List Location) (fs : FileSystem) : Grows places fs fs :=
  ⟨rfl, fun _ => .inl rfl⟩

theorem trans (h : Grows places fs fs') (h' : Grows places fs' fs'') : Grows places fs fs'' := by
  refine ⟨h'.workingDir.trans h.workingDir, fun loc => ?_⟩
  rcases h.entry?_eq loc with hsame | ⟨hmem, hnone, hdir⟩
  · rcases h'.entry?_eq loc with hsame' | ⟨hmem, hnone, hdir⟩
    · exact .inl (hsame'.trans hsame)
    · exact .inr ⟨hmem, hsame ▸ hnone, hdir⟩
  · rcases h'.entry?_eq loc with hsame' | ⟨-, hnone', -⟩
    · exact .inr ⟨hmem, hnone, hsame'.trans hdir⟩
    · rw [hdir] at hnone'
      cases hnone'

theorem mono (h : Grows places fs fs') (hsub : places ⊆ more) : Grows more fs fs' :=
  ⟨h.workingDir, fun loc => (h.entry?_eq loc).imp_right fun ⟨hmem, hrest⟩ => ⟨hsub hmem, hrest⟩⟩

theorem start_eq (h : Grows places fs fs') (path : String) : fs'.start path = fs.start path := by
  rw [FileSystem.start, FileSystem.start, h.workingDir]

theorem trail_eq (h : Grows places fs fs') (path : String) : fs'.trail path = fs.trail path := by
  rw [trail, trail, h.start_eq]

theorem place_eq (h : Grows places fs fs') (path : String) : fs'.place path = fs.place path := by
  rw [place, place, h.start_eq]

/-- Directories stay. -/
theorem directory (h : Grows places fs fs') (hloc : fs.entry? loc = some .directory) :
    fs'.entry? loc = some .directory := by
  rcases h.entry?_eq loc with hsame | ⟨-, -, hdir⟩
  · exact hsame.trans hloc
  · exact hdir

/-- No file is new, and none is lost. -/
theorem file_iff (h : Grows places fs fs') {contents : ByteArray} :
    fs'.entry? loc = some (.file contents) ↔ fs.entry? loc = some (.file contents) := by
  rcases h.entry?_eq loc with hsame | ⟨-, hnone, hdir⟩
  · rw [hsame]
  · rw [hnone, hdir]
    exact iff_of_false nofun nofun

theorem put (hnone : fs.entry? loc = none) : Grows [loc] fs (fs.put loc .directory) := by
  refine ⟨rfl, fun m => ?_⟩
  rw [entry?_put (ne_nil_of_not_directory hnone nofun)]
  by_cases hm : m = loc
  · subst hm
    exact .inr ⟨List.mem_singleton_self m, hnone, if_pos rfl⟩
  · exact .inl (if_neg hm)

end Grows

/-- How making a directory ends. -/
theorem run_makeDir_cases (fs : FileSystem) (path : String) :
    (fs.resolve path = .ok (fs.place path) ∧ fs.entry? (fs.place path) = none ∧
      (makeDir path).run fs = (.ok (), fs.put (fs.place path) .directory)) ∨
    (fs.resolve path = .ok (fs.place path) ∧ fs.entry? (fs.place path) ≠ none ∧
      (makeDir path).run fs = (.error .alreadyExists, fs)) ∨
    ∃ e, fs.resolve path = .error e ∧ (makeDir path).run fs = (.error e, fs) := by
  rcases hresolve : fs.resolve path with e | loc
  · refine .inr (.inr ⟨e, rfl, ?_⟩)
    rw [Action.run, makeDir, hresolve]
  · obtain ⟨-, -, rfl⟩ := resolve_eq_ok_iff.mp hresolve
    rcases hentry : fs.entry? (fs.place path) with _ | entry
    · refine .inl ⟨rfl, rfl, ?_⟩
      rw [Action.run, makeDir, hresolve]
      dsimp only
      rw [hentry]
    · refine .inr (.inl ⟨rfl, nofun, ?_⟩)
      rw [Action.run, makeDir, hresolve]
      dsimp only
      rw [hentry]

end FileSystem

/-! ## Making directories on a machine -/

namespace World

open FileSystem

/-- Making a directory acts on the files alone. -/
theorem run_makeDir {path : String} {w : World} {made : Except FileError Unit} {files : FileSystem}
    (h : (makeDir path).run w.files = (made, files)) :
    (host.makeDir path).run w = (made, { w with files }) := by
  have hmake : (host.makeDir path).run w =
      (((makeDir path).run w.files).1, { w with files := ((makeDir path).run w.files).2 }) := rfl
  rw [hmake, h]

theorem run_acceptExisting (dir : String) (w : World) :
    (host.acceptExisting dir (.error .alreadyExists)).run w =
      (if w.files.isDir dir then .ok () else .error .alreadyExists, w) := by
  have hisDir : (host.isDir dir).run w = (w.files.isDir dir, w) := rfl
  refine (run_bind_of_run hisDir _).trans ?_
  split <;> rfl

/-- Another failure is not accepted. -/
theorem acceptExisting_of_ne {e : FileError} (h : e ≠ .alreadyExists) (dir : String) :
    host.acceptExisting dir (.error e) = return .error e := by
  cases e with
  | alreadyExists => exact absurd rfl h
  | _ => rfl

/-- Making a directory that may be there already. -/
theorem run_make (dir : String) (w : World) :
    ∃ made files,
      (host.makeDir dir >>= host.acceptExisting dir).run w = (made, { w with files }) ∧
      Grows [w.files.place dir] w.files files ∧ (made = .ok () → files.isDir dir = true) := by
  rcases run_makeDir_cases w.files dir with ⟨hresolve, hnone, hrun⟩ | ⟨-, -, hrun⟩ |
    ⟨e, hresolve, hrun⟩
  · have hmake := run_makeDir hrun
    refine ⟨.ok (), _, run_bind_of_run hmake _, .put hnone, fun _ => ?_⟩
    have hgrows := Grows.put hnone
    obtain ⟨hne, hway, -⟩ := resolve_eq_ok_iff.mp hresolve
    rw [isDir_iff, hgrows.start_eq, hgrows.trail_eq, forall_mem_way]
    refine ⟨hne, fun m hm => hgrows.directory (hway m hm), ?_⟩
    rw [entry?_put (ne_nil_of_not_directory hnone nofun), if_pos rfl]
  · have hmake := run_makeDir hrun
    refine ⟨_, w.files, (run_bind_of_run hmake _).trans (run_acceptExisting dir w), .refl _ _, ?_⟩
    intro hmade
    split at hmade
    · next hdir => exact hdir
    · cases hmade
  · have hmake := run_makeDir hrun
    have hne : e ≠ .alreadyExists := by
      rcases resolve_eq_error hresolve with ⟨rfl, -⟩ | ⟨rfl, -⟩ <;> nofun
    refine ⟨.error e, w.files, (run_bind_of_run hmake _).trans ?_, .refl _ _, nofun⟩
    rw [acceptExisting_of_ne hne]
    rfl

/-- Unless something around it is missing, a directory is made at once. -/
theorem run_createAll_of_ne {dir : String} {w : World}
    (h : ((makeDir dir).run w.files).1 ≠ .error .notFound) (enclosing : List String) :
    (host.createAll (dir :: enclosing)).run w =
      (host.makeDir dir >>= host.acceptExisting dir).run w := by
  rcases hrun : (makeDir dir).run w.files with ⟨made, files⟩
  rw [hrun] at h
  have hmake := run_makeDir hrun
  rw [Host.createAll, run_bind_of_run hmake, run_bind_of_run hmake]
  split
  · exact absurd rfl h
  · rfl

/-- Otherwise it is made behind those around it. -/
theorem run_createAll_of_notFound {dir : String} {enclosing : List String} {w w' : World}
    (h : ((makeDir dir).run w.files).1 = .error .notFound) :
    (∀ e, (host.createAll enclosing).run w = (.error e, w') →
      (host.createAll (dir :: enclosing)).run w = (.error e, w')) ∧
    ((host.createAll enclosing).run w = (.ok (), w') →
      (host.createAll (dir :: enclosing)).run w =
        (host.makeDir dir >>= host.acceptExisting dir).run w') := by
  have hmake : (host.makeDir dir).run w = (.error .notFound, w) := by
    rcases run_makeDir_cases w.files dir with ⟨-, -, hrun⟩ | ⟨-, -, hrun⟩ | ⟨e, -, hrun⟩
    · rw [hrun] at h
      cases h
    · rw [hrun] at h
      cases h
    · rw [hrun] at h
      cases h
      exact run_makeDir hrun
  rw [Host.createAll, run_bind_of_run hmake]
  exact ⟨fun e hrun => run_bind_of_run hrun _, fun hrun => run_bind_of_run hrun _⟩

/-- **Making a directory and those around it** adds directories and changes nothing else. If it
succeeds, the directory is there. -/
theorem run_createAll {dirs : List String} {places : List Location} {w : World}
    (hplaces : ∀ dir ∈ dirs, w.files.place dir ∈ places) :
    ∃ made files, (host.createAll dirs).run w = (made, { w with files }) ∧
      Grows places w.files files ∧
      (made = .ok () → ∀ dir ∈ dirs.head?, files.isDir dir = true) := by
  induction dirs generalizing w with
  | nil => exact ⟨.ok (), w.files, rfl, .refl _ _, fun _ _ h => by cases h⟩
  | cons dir enclosing ih =>
    rw [List.forall_mem_cons] at hplaces
    have hplace : [w.files.place dir] ⊆ places := by simpa using hplaces.1
    by_cases hmissing : ((makeDir dir).run w.files).1 = .error .notFound
    · obtain ⟨made₁, files₁, hrun₁, hgrows₁, -⟩ := ih hplaces.2
      cases made₁ with
      | error e =>
        exact ⟨.error e, files₁, (run_createAll_of_notFound hmissing).1 e hrun₁, hgrows₁, nofun⟩
      | ok _ =>
        obtain ⟨made, files, hrun, hgrows, hdir⟩ := run_make dir { w with files := files₁ }
        rw [(run_createAll_of_notFound hmissing).2 hrun₁]
        refine ⟨made, files, hrun, hgrows₁.trans (hgrows.mono ?_), fun hmade _ h => ?_⟩
        · rw [hgrows₁.place_eq]
          exact hplace
        · cases h
          exact hdir hmade
    · obtain ⟨made, files, hrun, hgrows, hdir⟩ := run_make dir w
      rw [run_createAll_of_ne hmissing]
      refine ⟨made, files, hrun, hgrows.mono hplace, fun hmade _ h => ?_⟩
      cases h
      exact hdir hmade

/-- A directory can be made if all around it are there and no file is in its place. -/
theorem run_make_of_directories {dir : String} {w : World} (hne : dir ≠ "")
    (hway : ∀ m ∈ (w.files.start dir :: w.files.trail dir).dropLast,
      w.files.entry? m = some .directory)
    (hplace : ∀ contents, w.files.entry? (w.files.place dir) ≠ some (.file contents)) :
    ((host.makeDir dir >>= host.acceptExisting dir).run w).1 = .ok () := by
  have hresolve := resolve_eq_ok_iff.mpr ⟨hne, hway, rfl⟩
  rcases run_makeDir_cases w.files dir with ⟨-, -, hrun⟩ | ⟨-, hsome, hrun⟩ | ⟨e, herror, -⟩
  · have hmake := run_makeDir hrun
    rw [run_bind_of_run hmake]
    rfl
  · have hmake := run_makeDir hrun
    have hdir : w.files.isDir dir = true := by
      rw [isDir_iff, forall_mem_way]
      refine ⟨hne, hway, ?_⟩
      rcases hentry : w.files.entry? (w.files.place dir) with _ | ⟨contents⟩ | ⟨⟩
      · exact absurd hentry hsome
      · exact absurd hentry (hplace contents)
      · rfl
    rw [run_bind_of_run hmake, run_acceptExisting, hdir]
    rfl
  · rw [hresolve] at herror
    cases herror

/-- **Directories one inside the other can be made** if the way to the outermost one is there and no
file is in the way. -/
theorem run_createAll_of_free {dirs : List String} {w : World} (hne : ∀ dir ∈ dirs, dir ≠ "")
    (hstart : ∀ dir ∈ dirs, w.files.entry? (w.files.start dir) = some .directory)
    (hfree : ∀ dir ∈ dirs, ∀ loc ∈ w.files.trail dir, ∀ contents,
      w.files.entry? loc ≠ some (.file contents))
    (hnested : dirs.IsChain fun inner outer =>
      ∀ m ∈ (w.files.start inner :: w.files.trail inner).dropLast,
        m ∈ w.files.start outer :: w.files.trail outer)
    (houtermost : ∀ dir ∈ dirs.getLast?,
      ∀ m ∈ (w.files.start dir :: w.files.trail dir).dropLast, m = w.files.start dir) :
    ((host.createAll dirs).run w).1 = .ok () := by
  induction dirs with
  | nil => rfl
  | cons dir enclosing ih =>
    rw [List.forall_mem_cons] at hne hstart hfree
    have hwayfree : ∀ m ∈ w.files.start dir :: w.files.trail dir, ∀ contents,
        w.files.entry? m ≠ some (.file contents) := by
      intro m hm contents hfile
      rcases List.mem_cons.mp hm with rfl | hm
      · rw [hstart.1] at hfile
        cases hfile
      · exact hfree.1 m hm contents hfile
    have hplace := (forall_mem_way.mp hwayfree).2
    by_cases hmissing : ((makeDir dir).run w.files).1 = .error .notFound
    · cases enclosing with
      | nil =>
        rw [(run_createAll_of_notFound hmissing).2 rfl]
        refine run_make_of_directories hne.1 (fun m hm => ?_) hplace
        rw [houtermost dir rfl m hm]
        exact hstart.1
      | cons outer enclosing =>
        rw [List.isChain_cons_cons] at hnested
        have hmade := ih hne.2 hstart.2 hfree.2 hnested.2 (by simpa using houtermost)
        have hplaces : ∀ d ∈ outer :: enclosing,
            w.files.place d ∈ (outer :: enclosing).map w.files.place := fun d hd =>
          List.mem_map_of_mem hd
        obtain ⟨made, files, hrun, hgrows, hdir⟩ := run_createAll hplaces
        rw [hrun] at hmade
        obtain rfl : made = .ok () := hmade
        rw [(run_createAll_of_notFound hmissing).2 hrun]
        obtain ⟨-, houter⟩ := isDir_iff.mp (hdir rfl outer rfl)
        rw [hgrows.start_eq, hgrows.trail_eq] at houter
        refine run_make_of_directories (w := { w with files }) hne.1 (fun m hm => ?_) ?_
        · dsimp only at hm
          rw [hgrows.start_eq, hgrows.trail_eq] at hm
          exact houter m (hnested.1 m hm)
        · intro contents
          rw [hgrows.place_eq, ne_eq, hgrows.file_iff]
          exact hplace contents
    · rw [run_createAll_of_ne hmissing]
      have hmake : (∀ m ∈ (w.files.start dir :: w.files.trail dir).dropLast,
          w.files.entry? m = some .directory) →
          ((host.makeDir dir >>= host.acceptExisting dir).run w).1 = .ok () := fun hway =>
        run_make_of_directories hne.1 hway hplace
      rcases run_makeDir_cases w.files dir with ⟨hresolve, -⟩ | ⟨hresolve, -⟩ | ⟨e, hresolve, hrun⟩
      · exact hmake (resolve_eq_ok_iff.mp hresolve).2.1
      · exact hmake (resolve_eq_ok_iff.mp hresolve).2.1
      · rcases resolve_eq_error hresolve with ⟨rfl, -⟩ | ⟨rfl, m, hm, contents, hfile⟩
        · exact absurd (by rw [hrun]) hmissing
        · exact absurd hfile (hwayfree m (List.mem_of_mem_dropLast hm) contents)

/-- A computation that does not care what has been printed, and prints nothing. -/
def Silent {α : Type} (x : StateM World α) : Prop :=
  ∀ w output, x.run { w with output } = ((x.run w).1, { (x.run w).2 with output })

theorem Silent.bind {α β : Type} {x : StateM World α} {f : α → StateM World β} (hx : Silent x)
    (hf : ∀ a, Silent (f a)) : Silent (x >>= f) := by
  intro w output
  rw [run_bind_of_run (hx w output)]
  exact hf _ _ output

theorem silent_pure {α : Type} (a : α) : Silent (pure a) :=
  fun _ _ => rfl

theorem silent_make (dir : String) : Silent (host.makeDir dir >>= host.acceptExisting dir) := by
  have hmake : Silent (host.makeDir dir) := fun _ _ => rfl
  have hisDir : Silent (host.isDir dir) := fun _ _ => rfl
  refine hmake.bind fun made => ?_
  rw [Host.acceptExisting.eq_def]
  split
  · refine hisDir.bind fun there => ?_
    split <;> exact silent_pure _
  · exact silent_pure _

/-- **Making directories** does not depend on what has been printed. -/
theorem silent_createAll (dirs : List String) : Silent (host.createAll dirs) := by
  induction dirs with
  | nil => exact silent_pure _
  | cons dir enclosing ih =>
    intro w output
    by_cases hmissing : ((makeDir dir).run w.files).1 = .error .notFound
    · have hrest := ih w output
      rcases hrun : (host.createAll enclosing).run w with ⟨e | _, w'⟩
      · rw [hrun] at hrest
        rw [(run_createAll_of_notFound hmissing).1 e hrun,
          (run_createAll_of_notFound (w := { w with output }) hmissing).1 e hrest]
      · rw [hrun] at hrest
        rw [(run_createAll_of_notFound hmissing).2 hrun,
          (run_createAll_of_notFound (w := { w with output }) hmissing).2 hrest]
        exact silent_make dir w' output
    · rw [run_createAll_of_ne hmissing, run_createAll_of_ne (w := { w with output }) hmissing]
      exact silent_make dir w output

theorem silent_createDirs (dir : String) : Silent (host.createDirs dir) :=
  silent_createAll _

/-- **Making a directory together with those around it.** Only directories are added, and only on
the trail of the path. If it succeeds, the trail is made of directories, and so is its start. -/
theorem run_createDirs (dir : String) (w : World) :
    ∃ made files, (host.createDirs dir).run w = (made, { w with files }) ∧
      Grows (w.files.trail dir) w.files files ∧
      (made = .ok () → (∀ loc ∈ w.files.trail dir, files.entry? loc = some .directory) ∧
        (dir ≠ "" → files.entry? (w.files.start dir) = some .directory)) := by
  obtain ⟨made, files, hrun, hgrows, hdir⟩ :=
    run_createAll fun d (hd : d ∈ Path.ancestors dir) => place_mem_trail_of_ancestors w.files hd
  refine ⟨made, files, hrun, hgrows, fun hmade => ?_⟩
  by_cases hnone : (Path.ofString dir).components = []
  · refine ⟨fun loc hloc => ?_, fun hne => ?_⟩
    · rw [eq_nil_of_mem_trail hnone hloc]
      rfl
    · rw [start_of_components_eq_nil hnone hne]
      rfl
  · have hhead : dir ∈ (Path.ancestors dir).head? := by
      rw [ancestors_eq, if_neg hnone]
      rfl
    obtain ⟨-, hway⟩ := isDir_iff.mp (hdir hmade dir hhead)
    rw [hgrows.start_eq, hgrows.trail_eq] at hway
    exact ⟨fun loc hloc => hway loc (List.mem_cons_of_mem _ hloc),
      fun _ => hway _ (List.mem_cons_self ..)⟩

/-- **A directory can be made together with those around it** if the way starts at a directory and
no file is in the way, and not otherwise. The path must not end in a single dot behind other names,
which asks for a directory that is there. -/
theorem run_createDirs_eq_ok_iff {dir : String} {w : World}
    (hstart : w.files.entry? (w.files.start dir) = some .directory)
    (hend : (Path.ofString dir).names.length ≤ 1 ∨ (Path.ofString dir).names.getLast? ≠ some ".") :
    ((host.createDirs dir).run w).1 = .ok () ↔ ∀ loc ∈ w.files.trail dir, ∀ contents,
      w.files.entry? loc ≠ some (.file contents) := by
  constructor
  · obtain ⟨made, files, hrun, hgrows, hdir⟩ := run_createDirs dir w
    intro hmade loc hloc contents hfile
    rw [hrun] at hmade
    have hdirectory := (hdir hmade).1 loc hloc
    rw [hgrows.file_iff.mpr hfile] at hdirectory
    cases hdirectory
  · intro hfree
    rw [Host.createDirs, ancestors_eq]
    split
    · rfl
    · next hcomponents =>
      have hdir : dir ≠ "" := by
        rintro rfl
        exact hcomponents rfl
      have henclosing := fun d (hd : d ∈ enclosing dir) => trail_of_mem_enclosing w.files hd
      obtain ⟨hchain, hlast⟩ := isChain_enclosing w.files hcomponents hend
      refine run_createAll_of_free ?_ ?_ ?_ hchain hlast
      · exact List.forall_mem_cons.mpr ⟨hdir, fun d hd =>
          Path.leads_iff.mp (.inr (henclosing d hd).1)⟩
      · refine List.forall_mem_cons.mpr ⟨hstart, fun d hd => ?_⟩
        rw [(henclosing d hd).2.1]
        exact hstart
      · exact List.forall_mem_cons.mpr ⟨hfree, fun d hd loc hloc =>
          hfree loc ((henclosing d hd).2.2 hloc)⟩

end World

end StraightLine
