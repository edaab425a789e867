import Mathlib
import StraightLine.Command.Run
import StraightLine.Proofs.Directories

/-!
# What a run of the command leaves behind

A run of the command reads a source and compiles it. If either fails, nothing has been touched.
Otherwise it prints the assembly if that was asked for, makes the directory for artifacts and writes
the chosen files into it, one after another. This module says what the machine looks like
afterwards, however far the run came: what was printed, which directories are new, which files hold
what, and that all else is as it was.

The files are taken in a fixed order and have different names, so no file replaces one that was
written before it, and those that are written are the first of the chosen ones. A file is not
written if the code has no value to write, or if there is a directory of its name.

## Main definitions

* `Compilation.fileTable` — the files of a compilation, each with its kind, name and contents
* `Compilation.requestedFiles` — those that a list of kinds asks for
* `FileSystem.Filled` — some files have been written
* `World.source` — the text that there is to compile

## Main results

* `World.run_writeFiles` — what writing files into a directory does
* `effects_of_command` — what a run of the command does
-/

namespace StraightLine

/-! ## The files that are asked for -/

/-- Whether a selection has the artifacts of a kind. -/
def Selection.has (s : Selection) (kind : String) : Bool :=
  (kind = "tokens" && s.tokens) || (kind = "symbols" && s.symbols) || (kind = "ir" && s.code) ||
    (kind = "eval" && s.value) || (kind = "asm" && s.assembly)

/-- The kinds that ask for one sort of artifact. -/
def artifactKinds : List String :=
  ["tokens", "symbols", "ir", "eval", "asm"]

namespace Compilation

/-- The files that a compilation can be written down as, in order: the kind that asks for the file,
its name and its contents, which the value may lack. -/
def fileTable (c : Compilation) : List (String × String × Except EvalError String) :=
  [("tokens", "token.txt", .ok (unlines (c.tokens.map Token.render))),
    ("symbols", "old_symbol_table.txt", .ok c.scannedSymbols.render),
    ("symbols", "new_symbol_table.txt", .ok c.symbols.render),
    ("ir", "intermediate_code.txt", .ok (unlines (c.code.map Instr.render))),
    ("eval", "ir_emulate_result.txt", (StraightLine.evaluate c.code).result.map renderResult),
    ("asm", "assembly_language.asm", .ok (unlines (c.assembly.map AsmLine.render)))]

/-- The files that are wanted: those of the kinds that are named, or of all kinds; if none is named,
all files, unless the assembly is printed. -/
def requestedFiles (c : Compilation) (kinds : List String) (printAssembly : Bool) :
    List (String × Except EvalError String) :=
  (c.fileTable.filter fun row =>
    if kinds = [] then !printAssembly else row.1 ∈ kinds || "all" ∈ kinds).map Prod.snd

theorem outputFiles_eq (c : Compilation) (s : Selection) :
    (c.outputFiles s).map (fun f => (f.name, f.contents)) =
      (c.fileTable.filter fun row => s.has row.1).map Prod.snd := by
  obtain ⟨tokens, symbols, code, value, assembly⟩ := s
  cases tokens <;> cases symbols <;> cases code <;> cases value <;> cases assembly <;> rfl

end Compilation

namespace Selection

theorem has_union (s t : Selection) (kind : String) :
    (s.union t).has kind = (s.has kind || t.has kind) := by
  simp only [has, union, Bool.and_or_distrib_left]
  ac_rfl

/-- A kind asks for its own artifacts, and `all` for every one. -/
theorem has_ofKind? {s : Selection} {name kind : String} (h : ofKind? name = some s)
    (hkind : kind ∈ artifactKinds) : s.has kind = (kind = name || "all" = name) := by
  unfold ofKind? at h
  split_ifs at h <;> subst_vars <;> cases h <;> revert hkind <;> revert kind <;> decide

theorem ofKinds_cons_eq_ok {s : Selection} {name : String} {kinds : List String}
    (h : ofKinds (name :: kinds) = .ok s) :
    ∃ first rest, ofKind? name = some first ∧ ofKinds kinds = .ok rest ∧ s = first.union rest := by
  rw [ofKinds] at h
  rcases hfirst : ofKind? name with _ | first
  · rw [hfirst] at h
    cases h
  · rcases hrest : ofKinds kinds with e | rest
    · rw [hfirst, hrest] at h
      cases h
    · rw [hfirst, hrest] at h
      cases h
      exact ⟨first, rest, rfl, rfl, rfl⟩

/-- A list of kinds asks for what one of them asks for. -/
theorem has_ofKinds {s : Selection} {kinds : List String} (h : ofKinds kinds = .ok s)
    {kind : String} (hkind : kind ∈ artifactKinds) :
    s.has kind = (kind ∈ kinds || "all" ∈ kinds) := by
  induction kinds generalizing s with
  | nil =>
    cases h
    simp [has, empty]
  | cons name kinds ih =>
    obtain ⟨first, rest, hfirst, hrest, rfl⟩ := ofKinds_cons_eq_ok h
    rw [has_union, has_ofKind? hfirst hkind, ih hrest]
    simp only [List.mem_cons, Bool.decide_or]
    ac_rfl

/-- Asking for something is not asking for nothing. -/
theorem ne_empty_of_ofKinds {s : Selection} {kinds : List String} (h : ofKinds kinds = .ok s)
    (hne : kinds ≠ []) : s ≠ .empty := by
  obtain ⟨name, kinds, rfl⟩ := List.exists_cons_of_ne_nil hne
  obtain ⟨first, -, hfirst, -⟩ := ofKinds_cons_eq_ok h
  have hname : name ∈ "all" :: artifactKinds := by
    unfold ofKind? at hfirst
    split_ifs at hfirst <;> subst_vars <;> decide
  obtain ⟨kind, hkind, hasks⟩ : ∃ kind ∈ artifactKinds, kind = name ∨ "all" = name := by
    rcases List.mem_cons.mp hname with rfl | hmem
    · exact ⟨"tokens", by decide, .inr rfl⟩
    · exact ⟨name, hmem, .inl rfl⟩
  have hhas := has_ofKinds h hkind
  rintro rfl
  rcases hasks with rfl | rfl <;> simp [has, empty] at hhas

end Selection

namespace Gathered

variable {g : Gathered} {i : Invocation}

theorem addInput_ne (g : Gathered) (name : String) : g.addInput name ≠ .error (.compile i) := by
  rw [addInput]
  split <;> nofun

theorem addPlain_ne (g : Gathered) (arg : String) : g.addPlain arg ≠ .error (.compile i) := by
  rw [addPlain]
  split
  · nofun
  · exact addInput_ne g arg

theorem addShort_ne (g : Gathered) (cs : List Char) : g.addShort cs ≠ .error (.compile i) := by
  fun_induction addShort g cs with
  | case2 g cs ih => exact ih
  | _ => nofun

/-- No argument alone is a command that can run. -/
theorem add_ne (g : Gathered) (arg : String) : g.add arg ≠ .error (.compile i) := by
  rw [add]
  split
  · exact addInput_ne g arg
  · split
    · exact addPlain_ne g arg
    · nofun
    · dsimp only
      rw [addLong.eq_def]
      split <;> nofun
    · exact addShort_ne _ _
    · exact addPlain_ne g arg

theorem foldlM_add_ne (g : Gathered) (args : List String) :
    args.foldlM add g ≠ .error (.compile i) := by
  induction args generalizing g with
  | nil => nofun
  | cons arg args ih =>
    rw [List.foldlM_cons]
    rcases hadd : g.add arg with r | g'
    · rintro ⟨⟩
      exact add_ne g arg hadd
    · exact ih g'

end Gathered

/-- **What accepted arguments ask for**: the source, whether to print, the directory, and the kinds
of artifact. -/
theorem exists_gathered {args : List String} {i : Invocation}
    (h : parseArguments args = .compile i) :
    ∃ g : Gathered, args.foldlM Gathered.add {} = .ok g ∧ g.input = some i.input ∧
      i.printAssembly = decide (g.asmFlags ≠ 0) ∧ i.outDir = g.outDirs.head?.getD "." ∧
      Selection.wanted? g.kinds i.printAssembly = some i.selection := by
  rw [parseArguments] at h
  split at h
  · next g hg =>
    refine ⟨g, hg, ?_⟩
    rw [Gathered.request] at h
    split at h
    · cases h
    · split at h
      · next input selection hinput hselection =>
        cases h
        exact ⟨hinput, rfl, rfl, hselection⟩
      · cases h
  · next r hr =>
    subst h
    exact absurd hr (Gathered.foldlM_add_ne {} args)

section Wanted

variable {kinds : List String} {printAssembly : Bool} {s : Selection}

/-- What the artifacts that are wanted depend on. -/
theorem Selection.wanted?_eq_some (h : wanted? kinds printAssembly = some s) :
    (kinds = [] ∧ s = if printAssembly then .empty else .all) ∨
      (kinds ≠ [] ∧ ofKinds kinds = .ok s) := by
  rw [wanted?.eq_def] at h
  split at h
  · exact .inl ⟨rfl, (Option.some.inj h).symm⟩
  · next hkinds =>
    refine .inr ⟨hkinds, ?_⟩
    rcases hof : ofKinds kinds with e | s'
    · rw [hof] at h
      cases h
    · rw [hof] at h
      cases h
      rfl

/-- Nothing is wanted only by default, when the assembly is printed. -/
theorem Selection.eq_empty_iff_of_wanted? (h : wanted? kinds printAssembly = some s) :
    s = .empty ↔ kinds = [] ∧ printAssembly = true := by
  rcases wanted?_eq_some h with ⟨hkinds, rfl⟩ | ⟨hkinds, hof⟩
  · cases printAssembly with
    | true => simp [hkinds]
    | false => simp [hkinds, all, empty]
  · exact iff_of_false (ne_empty_of_ofKinds hof hkinds) fun h => hkinds h.1

theorem Compilation.outputFiles_eq_requestedFiles (c : Compilation)
    (h : Selection.wanted? kinds printAssembly = some s) :
    (c.outputFiles s).map (fun f => (f.name, f.contents)) =
      c.requestedFiles kinds printAssembly := by
  rw [c.outputFiles_eq, requestedFiles]
  refine congrArg _ (List.filter_congr fun row hrow => ?_)
  have hkind : row.1 ∈ artifactKinds := by
    revert row
    simp [fileTable, artifactKinds]
  rcases Selection.wanted?_eq_some h with ⟨hkinds, rfl⟩ | ⟨hkinds, hof⟩
  · have hall : Selection.all.has row.1 = true := by
      generalize row.1 = kind at hkind
      revert kind
      decide
    rw [if_pos hkinds]
    cases printAssembly with
    | true => simp [Selection.has, Selection.empty]
    | false => simpa using hall
  · rw [if_neg hkinds, Selection.has_ofKinds hof hkind]

end Wanted

/-! ## Writing files -/

/-- A name that leads inside of a directory. -/
def Path.IsOrdinary (name : String) : Prop :=
  Path.IsName name ∧ name ≠ "." ∧ name ≠ ".."

namespace Compilation

/-- **The files of a compilation** have different names, which lead inside of a directory. -/
theorem names_outputFiles (c : Compilation) (s : Selection) :
    ((c.outputFiles s).map (·.name)).Nodup ∧ ∀ f ∈ c.outputFiles s, Path.IsOrdinary f.name := by
  have hnames : (c.outputFiles s).map (·.name) =
      ((c.outputFiles s).map fun f => (f.name, f.contents)).map Prod.fst := by
    rw [List.map_map]
    rfl
  have hsublist : ((c.outputFiles s).map (·.name)).Sublist (c.fileTable.map (·.2.1)) := by
    rw [hnames, outputFiles_eq, List.map_map]
    exact List.filter_sublist.map _
  have htable : c.fileTable.map (·.2.1) = ["token.txt", "old_symbol_table.txt",
      "new_symbol_table.txt", "intermediate_code.txt", "ir_emulate_result.txt",
      "assembly_language.asm"] := rfl
  rw [htable] at hsublist
  refine ⟨hsublist.nodup (by decide), fun f hf => ?_⟩
  have hmem := hsublist.subset (List.mem_map_of_mem hf)
  generalize f.name = name at hmem
  revert name
  unfold Path.IsOrdinary Path.IsName
  decide

end Compilation

namespace FileSystem

variable {fs fs' : FileSystem} {dir name : String}

/-- The path of a file inside a directory leads there if the way to the directory does. -/
theorem resolve_joinPath (hname : Path.IsOrdinary name) {loc : Location} :
    fs.resolve (joinPath dir name) = .ok loc ↔
      (∀ m ∈ fs.start dir :: fs.trail dir, fs.entry? m = some .directory) ∧
        fs.place dir ++ [name] = loc := by
  have hpath := Path.ofString_joinPath dir hname.1
  have hne : joinPath dir name ≠ "" := Path.leads_iff.mp (.inr (by rw [hpath]; simp))
  have hstart : fs.start (joinPath dir name) = fs.start dir := by
    rw [start, start, hpath]
  have hfollow : follow (fs.place dir) name = fs.place dir ++ [name] := by
    rw [follow, if_neg hname.2.1, if_neg hname.2.2]
  rw [resolve_eq_ok_iff, and_iff_right hne, trail, place, hstart, hpath, dropLast_trailFrom_concat,
    List.foldl_concat, ← hfollow]
  rfl

/-- How writing a file into a directory ends. -/
theorem run_writeText_cases (fs : FileSystem) (dir : String) (hname : Path.IsOrdinary name)
    (text : String) :
    ((∀ m ∈ fs.start dir :: fs.trail dir, fs.entry? m = some .directory) ∧
      fs.entry? (fs.place dir ++ [name]) ≠ some .directory ∧
      (writeText (joinPath dir name) text).run fs =
        (.ok (), fs.put (fs.place dir ++ [name]) (.file text.toUTF8))) ∨
    (((∃ m ∈ fs.start dir :: fs.trail dir, fs.entry? m ≠ some .directory) ∨
      fs.entry? (fs.place dir ++ [name]) = some .directory) ∧
      ∃ e, (writeText (joinPath dir name) text).run fs = (.error e, fs)) := by
  rcases hresolve : fs.resolve (joinPath dir name) with e | loc
  · refine .inr ⟨.inl ?_, e, ?_⟩
    · by_contra! hway
      rw [(resolve_joinPath hname).mpr ⟨hway, rfl⟩] at hresolve
      cases hresolve
    · rw [Action.run, writeText, hresolve]
  · obtain ⟨hway, rfl⟩ := (resolve_joinPath hname).mp hresolve
    have hslash : (Path.ofString (joinPath dir name)).trailingSlash = false := by
      rw [Path.ofString_joinPath dir hname.1]
    rcases hentry : fs.entry? (fs.place dir ++ [name]) with _ | ⟨contents⟩ | ⟨⟩
    · refine .inl ⟨hway, by simp, ?_⟩
      rw [Action.run, writeText, hresolve]
      dsimp only
      rw [hentry, hslash]
      rfl
    · refine .inl ⟨hway, by simp, ?_⟩
      rw [Action.run, writeText, hresolve]
      dsimp only
      rw [hentry, hslash]
      rfl
    · refine .inr ⟨.inr rfl, .isDirectory, ?_⟩
      rw [Action.run, writeText, hresolve]
      dsimp only
      rw [hentry]

/-- **Some files have been written** into a place: each holds its contents, and all else is as it
was. -/
structure Filled (place : Location) (files : List (String × String)) (fs fs' : FileSystem) :
    Prop where
  /-- Relative paths start where they did. -/
  workingDir : fs'.workingDir = fs.workingDir
  /-- No file is in the place of a directory. -/
  free : ∀ f ∈ files, fs.entry? (place ++ [f.1]) ≠ some .directory
  /-- Each file holds its contents. -/
  written : ∀ f ∈ files, fs'.entry? (place ++ [f.1]) = some (.file f.2.toUTF8)
  /-- All else is as it was. -/
  kept : ∀ loc, (∀ f ∈ files, loc ≠ place ++ [f.1]) → fs'.entry? loc = fs.entry? loc

theorem Filled.refl (place : Location) (fs : FileSystem) : Filled place [] fs fs :=
  ⟨rfl, nofun, nofun, fun _ _ => rfl⟩

/-- Behind one file, others of different names are written. -/
theorem Filled.cons {place : Location} {files : List (String × String)} {text : String}
    (hnew : ∀ f ∈ files, f.1 ≠ name) (hfree : fs.entry? (place ++ [name]) ≠ some .directory)
    (h : Filled place files (fs.put (place ++ [name]) (.file text.toUTF8)) fs') :
    Filled place ((name, text) :: files) fs fs' := by
  have hput : ∀ m, entry? (fs.put (place ++ [name]) (.file text.toUTF8)) m =
      if m = place ++ [name] then some (.file text.toUTF8) else fs.entry? m :=
    entry?_put (by simp) _
  have hother : ∀ f ∈ files, place ++ [f.1] ≠ place ++ [name] := fun f hf hsame =>
    hnew f hf (by simpa using hsame)
  refine ⟨h.workingDir, List.forall_mem_cons.mpr ⟨hfree, fun f hf => ?_⟩,
    List.forall_mem_cons.mpr ⟨?_, h.written⟩, fun loc hloc => ?_⟩
  · have hfree := h.free f hf
    rwa [hput, if_neg (hother f hf)] at hfree
  · rw [h.kept _ fun f hf => (hother f hf).symm, hput, if_pos rfl]
  · rw [List.forall_mem_cons] at hloc
    rw [h.kept loc hloc.2, hput, if_neg hloc.1]

end FileSystem

namespace World

open FileSystem

/-- Writing a file acts on the files alone. -/
theorem run_writeFile {path text : String} {w : World} {result : Except FileError Unit}
    {files : FileSystem} (h : (writeText path text).run w.files = (result, files)) :
    (host.writeFile path text).run w = (result, { w with files }) := by
  have hwrite : (host.writeFile path text).run w = (((writeText path text).run w.files).1,
      { w with files := ((writeText path text).run w.files).2 }) := rfl
  rw [hwrite, h]

theorem run_note (entries : Log) (w : World) :
    (host.note entries).run w = ((), { w with log := w.log ++ entries }) :=
  rfl

/-- **Writing files into a directory**, one after another. The first of them hold their contents,
and all else is as it was. It stops at a file without contents, or with a directory in its place, or
if the way to the directory is not there. -/
theorem run_writeFiles (dir : String) {files : List OutputFile} {w : World}
    (hnodup : (files.map (·.name)).Nodup) (hordinary : ∀ f ∈ files, Path.IsOrdinary f.name) :
    ∃ result fs log done rest,
      (host.writeFiles dir files).run w = (result, { w with files := fs, log }) ∧
      files.map (fun f => (f.name, f.contents)) = done.map (fun f => (f.1, .ok f.2)) ++ rest ∧
      Filled (w.files.place dir) done w.files fs ∧ (result = .ok () ↔ rest = []) ∧
      ∀ f ∈ rest.head?, (∃ e, f.2 = .error e) ∨
        fs.entry? (w.files.place dir ++ [f.1]) = some .directory ∨
        ∃ m ∈ w.files.start dir :: w.files.trail dir, w.files.entry? m ≠ some .directory := by
  induction files generalizing w with
  | nil =>
    exact ⟨.ok (), w.files, w.log, [], [], rfl, rfl, .refl _ _, by simp, nofun⟩
  | cons f files ih =>
    rw [List.map_cons, List.nodup_cons] at hnodup
    rw [List.forall_mem_cons] at hordinary
    rw [Host.writeFiles, run_bind_of_run (run_note f.log w)]
    rcases hcontents : f.contents with e | text
    · refine ⟨.error (.eval e), w.files, w.log ++ f.log, [], _, rfl, rfl, .refl _ _, by simp, ?_⟩
      rintro _ ⟨⟩
      exact .inl ⟨e, hcontents⟩
    · dsimp only
      rcases run_writeText_cases w.files dir hordinary.1 text with
        ⟨hway, hfree, hrun⟩ | ⟨hreason, e, hrun⟩
      · rw [run_bind_of_run (run_writeFile (w := { w with log := w.log ++ f.log }) hrun)]
        obtain ⟨result, fs, log, done, rest, hrest, hfiles, hfilled, hok, hreason⟩ :=
          ih (w := { w with
            files := w.files.put (w.files.place dir ++ [f.name]) (.file text.toUTF8)
            log := w.log ++ f.log }) hnodup.2 hordinary.2
        have hnew : ∀ g ∈ done, g.1 ≠ f.name := by
          intro g hg hsame
          have hmem : (g.1, Except.ok g.2) ∈ files.map fun f => (f.name, f.contents) := by
            rw [hfiles]
            exact List.mem_append_left _ (List.mem_map_of_mem hg)
          obtain ⟨f', hf', heq⟩ := List.mem_map.mp hmem
          refine hnodup.1 (List.mem_map.mpr ⟨f', hf', ?_⟩)
          rw [← hsame, ← congrArg Prod.fst heq]
        refine ⟨result, fs, log, (f.name, text) :: done, rest, hrest, ?_,
          hfilled.cons hnew hfree, hok, ?_⟩
        · rw [List.map_cons, hfiles, hcontents]
          rfl
        · intro g hg
          refine (hreason g hg).imp_right (Or.imp_right fun ⟨m, hm, hne⟩ => absurd ?_ hne)
          -- what was written is not on the way, where only directories are
          have hm := hway m hm
          rw [entry?_put (by simp), if_neg, hm]
          rintro rfl
          exact hfree hm
      · rw [run_bind_of_run (run_writeFile (w := { w with log := w.log ++ f.log }) hrun)]
        refine ⟨.error (.io e), w.files, w.log ++ f.log, [], _, rfl, rfl, .refl _ _, by simp, ?_⟩
        rintro _ ⟨⟩
        exact .inr hreason.symm

/-! ## Running the command -/

/-- The text that there is to compile: that of a file, or the standard input for a single dash. -/
def source (w : World) (input : String) : Except Failure String :=
  if input = "-" then (decodeText w.input).mapError .unreadableInput
  else (w.files.readText input).mapError (.unreadableFile input)

theorem run_print (text : String) (w : World) :
    (host.print text).run w = (.ok (), { w with output := w.output ++ text }) :=
  rfl

theorem run_readSource (input : String) (w : World) :
    (host.readSource input).run w = (w.source input, w) := by
  rw [Host.readSource, source]
  split <;> rfl

end World

/-- What a command prints of a compilation: the assembly, one line after another, or nothing. -/
def Invocation.printed (i : Invocation) (c : Compilation) : String :=
  if i.printAssembly then String.join (c.assembly.map fun line => line.render ++ "\n") else ""

theorem Compilation.assemblyText_eq (c : Compilation) :
    c.assemblyText = String.join (c.assembly.map fun line => line.render ++ "\n") := by
  rw [assemblyText, unlines, List.map_map]
  rfl

namespace FileSystem

/-- **A directory has been made, with those around it, and files have been written into it.** All
else is as it was. -/
structure Delivered (dir : String) (files : List (String × String)) (fs fs' : FileSystem) :
    Prop where
  /-- Relative paths start where they did. -/
  workingDir : fs'.workingDir = fs.workingDir
  /-- All on the way to the directory is there. -/
  directories : ∀ loc ∈ fs.trail dir, fs'.entry? loc = some .directory
  /-- Each file holds its contents. -/
  written : ∀ f ∈ files, fs'.entry? (fs.place dir ++ [f.1]) = some (.file f.2.toUTF8)
  /-- All else is as it was. -/
  kept : ∀ loc, loc ∉ fs.trail dir → (∀ f ∈ files, loc ≠ fs.place dir ++ [f.1]) →
    fs'.entry? loc = fs.entry? loc

theorem Grows.delivered {fs fs' fs'' : FileSystem} {dir : String} {files : List (String × String)}
    (h : Grows (fs.trail dir) fs fs')
    (hdir : ∀ loc ∈ fs.trail dir, fs'.entry? loc = some .directory)
    (hfilled : Filled (fs.place dir) files fs' fs'') : Delivered dir files fs fs'' where
  workingDir := hfilled.workingDir.trans h.workingDir
  directories loc hloc := by
    rw [hfilled.kept loc, hdir loc hloc]
    rintro f hf rfl
    exact hfilled.free f hf (hdir _ hloc)
  written := hfilled.written
  kept loc hloc hfiles := by
    rw [hfilled.kept loc hfiles]
    exact (h.entry?_eq loc).resolve_right fun hnew => hloc hnew.1

end FileSystem

namespace World

open FileSystem

/-- Without the directory, no artifact is written. -/
theorem run_writeArtifacts_of_error {dir : String} {w : World} {e : FileError}
    (h : ((host.createDirs dir).run w).1 = .error e) (c : Compilation) (s : Selection) :
    ∃ fs, (host.writeArtifacts c s dir).run w = (.error (.io e), { w with files := fs }) ∧
      Grows (w.files.trail dir) w.files fs := by
  obtain ⟨made, fs, hrun, hgrows, -⟩ := run_createDirs dir w
  rw [hrun] at h
  obtain rfl : made = .error e := h
  exact ⟨fs, run_bind_of_run hrun _, hgrows⟩

/-- **Writing artifacts** into a directory that can be made. -/
theorem run_writeArtifacts_of_ok {dir : String} {w : World}
    (h : ((host.createDirs dir).run w).1 = .ok ()) (c : Compilation) (s : Selection) :
    ∃ result fs log done rest,
      (host.writeArtifacts c s dir).run w = (result, { w with files := fs, log }) ∧
      (c.outputFiles s).map (fun f => (f.name, f.contents)) =
        done.map (fun f => (f.1, .ok f.2)) ++ rest ∧
      Delivered dir done w.files fs ∧ (result = .ok () ↔ rest = []) ∧
      ∀ f ∈ rest.head?, (∃ e, f.2 = .error e) ∨
        fs.entry? (w.files.place dir ++ [f.1]) = some .directory ∨
        (dir = "" ∧ w.files.entry? w.files.workingDir ≠ some .directory) := by
  obtain ⟨made, files, hrun, hgrows, hdir⟩ := run_createDirs dir w
  rw [hrun] at h
  obtain rfl : made = .ok () := h
  obtain ⟨hdirs, hstart⟩ := hdir rfl
  obtain ⟨hnodup, hordinary⟩ := c.names_outputFiles s
  obtain ⟨result, fs, log, done, rest, hwrite, hfiles, hfilled, hok, hreason⟩ :=
    run_writeFiles dir (w := { w with files }) hnodup hordinary
  dsimp only at hfilled hreason
  rw [hgrows.place_eq] at hfilled hreason
  refine ⟨result, fs, log, done, rest, (run_bind_of_run hrun _).trans hwrite, hfiles,
    hgrows.delivered hdirs hfilled, hok, fun f hf => (hreason f hf).imp_right (Or.imp_right ?_)⟩
  rintro ⟨m, hm, hne⟩
  rw [hgrows.start_eq, hgrows.trail_eq] at hm
  rcases List.mem_cons.mp hm with rfl | hm
  · by_cases hempty : dir = ""
    · subst hempty
      refine ⟨rfl, fun hdirectory => hne (hgrows.directory hdirectory)⟩
    · exact absurd (hstart hempty) hne
  · exact absurd (hdirs m hm) hne

end World

namespace Invocation

open World

variable {i : Invocation} {c : Compilation} {w : World}

theorem run_printWanted (i : Invocation) (c : Compilation) (w : World) :
    (i.printWanted host c).run w = (.ok (), { w with output := w.output ++ i.printed c }) := by
  rw [printWanted, printed]
  cases i.printAssembly with
  | true =>
    refine (run_bind_of_run (run_print c.assemblyText w) _).trans ?_
    rw [c.assemblyText_eq]
    rfl
  | false =>
    rw [if_neg Bool.false_ne_true, if_neg Bool.false_ne_true, String.append_empty]
    rfl

/-- First the assembly is printed, if that was asked for, then artifacts are written, if there are
any to write. -/
theorem run_deliver (i : Invocation) (c : Compilation) (w : World) :
    (i.deliver host c).run w =
      if i.selection = .empty then (.ok (), { w with output := w.output ++ i.printed c })
      else
        let r := (host.writeArtifacts c i.selection i.outDir).run
          { w with output := w.output ++ i.printed c }
        (r.1.mapError (.unwritable i.outDir), r.2) := by
  rw [deliver, run_bind_of_run (i.run_printWanted c w)]
  dsimp only
  rw [writeWanted]
  split <;> rfl

theorem run_of_unreadable {f : Failure} (h : w.source i.input = .error f) :
    (i.run host).run w = (.error f, w) := by
  rw [Invocation.run, run_bind_of_run (run_readSource i.input w), h]
  rfl

theorem run_of_compile {source : String} (h : w.source i.input = .ok source) :
    (∀ e, compile source = .error e → (i.run host).run w = (.error (.compilation e), w)) ∧
      ∀ c, compile source = .ok c → (i.run host).run w = (i.deliver host c).run w := by
  rw [Invocation.run, run_bind_of_run (run_readSource i.input w), h]
  refine ⟨fun e he => ?_, fun c hc => ?_⟩
  · dsimp only
    rw [he]
    rfl
  · dsimp only
    rw [hc]

end Invocation

/-- Accepted arguments do what their command does. -/
theorem run_runCommand {args : List String} {i : Invocation}
    (h : parseArguments args = .compile i) (w : World) :
    (runCommand World.host args).run w =
      (.ofResult ((i.run World.host).run w).1, ((i.run World.host).run w).2) := by
  rw [runCommand, h]
  rfl

open FileSystem in
/-- **What a command leaves behind of a compilation**: what it prints, the directories that it makes
and the files that it writes, all else being as it was. -/
structure Invocation.Leaves (i : Invocation) (kinds : List String) (c : Compilation) (w : World)
    (result : Except Failure Unit) (w' : World) : Prop where
  /-- No more of the input is read. -/
  input : w'.input = w.input
  /-- The assembly is printed if that was asked for, and nothing else is. -/
  output : w'.output = w.output ++ i.printed c
  /-- If no artifact is wanted, that is all. -/
  nothing : i.selection = .empty → result = .ok () ∧ w'.files = w.files
  /-- If the directory cannot be made, no file is new or changed. -/
  unmade : i.selection ≠ .empty → ∀ e, ((World.host.createDirs i.outDir).run w).1 = .error e →
    result = .error (.unwritable i.outDir (.io e)) ∧
      Grows (w.files.trail i.outDir) w.files w'.files
  /-- If it can, the first of the wanted files hold their contents. If these are not all, the next
  one has none, or its place is taken or out of reach. -/
  made : i.selection ≠ .empty → ((World.host.createDirs i.outDir).run w).1 = .ok () →
    ∃ done rest,
      c.requestedFiles kinds i.printAssembly = done.map (fun f => (f.1, .ok f.2)) ++ rest ∧
      Delivered i.outDir done w.files w'.files ∧
      exitStatus result = (if rest = [] then 0 else 1) ∧
      ∀ f ∈ rest.head?, (∃ e, f.2 = .error e) ∨
        w'.files.entry? (w.files.place i.outDir ++ [f.1]) = some .directory ∨
        (i.outDir = "" ∧ w.files.entry? w.files.workingDir ≠ some .directory)

namespace Invocation

variable {i : Invocation} {kinds : List String} {w : World} {source : String} {c : Compilation}

/-- A command that compiles its source leaves behind what it should. -/
theorem leaves_of_compile (hwanted : Selection.wanted? kinds i.printAssembly = some i.selection)
    (hsource : w.source i.input = .ok source) (hcompile : compile source = .ok c) :
    i.Leaves kinds c w ((i.run World.host).run w).1 ((i.run World.host).run w).2 := by
  rw [(run_of_compile hsource).2 c hcompile, i.run_deliver]
  by_cases hempty : i.selection = .empty
  · rw [if_pos hempty]
    exact ⟨rfl, rfl, fun _ => ⟨rfl, rfl⟩, fun hne => absurd hempty hne,
      fun hne => absurd hempty hne⟩
  · rw [if_neg hempty]
    dsimp only
    have hsilent := World.silent_createDirs i.outDir w (w.output ++ i.printed c)
    rcases hmade : ((World.host.createDirs i.outDir).run w).1 with e | _
    · obtain ⟨fs, hwrite, hgrows⟩ :=
        World.run_writeArtifacts_of_error (by rw [hsilent, hmade]) c i.selection
      rw [hwrite]
      refine ⟨rfl, rfl, fun h => absurd h hempty, ?_, ?_⟩
      · intro _ e' he'
        rw [hmade] at he'
        cases he'
        exact ⟨rfl, hgrows⟩
      · intro _ hok
        rw [hmade] at hok
        cases hok
    · obtain ⟨result, fs, log, done, rest, hwrite, hfiles, hdelivered, hok, hreason⟩ :=
        World.run_writeArtifacts_of_ok (by rw [hsilent, hmade]) c i.selection
      rw [c.outputFiles_eq_requestedFiles hwanted] at hfiles
      rw [hwrite]
      refine ⟨rfl, rfl, fun h => absurd h hempty, ?_,
        fun _ _ => ⟨done, rest, hfiles, hdelivered, ?_, hreason⟩⟩
      · intro _ e he
        rw [hmade] at he
        cases he
      · cases result with
        | ok _ => rw [if_pos (hok.mp rfl)]; rfl
        | error e => rw [if_neg fun hnil => nomatch hok.mpr hnil]; rfl

end Invocation

open FileSystem in
/-- **What a run of a command does**, on any machine. The artifacts that are wanted are those of the
kinds that are named; if none is named, all of them, or none if the assembly is printed. If there is
no source, or it does not compile, the run fails and the machine is as it was. Otherwise the command
leaves behind what it should. The directory for artifacts can be made if no file is in the way.
Arguments that are accepted name such a command and do what it does, with the status 0 for success
and 1 for a failure. -/
theorem effects_of_command (w : World) :
    (∀ (i : Invocation) (kinds : List String),
      Selection.wanted? kinds i.printAssembly = some i.selection →
      (i.selection = .empty ↔ kinds = [] ∧ i.printAssembly = true) ∧
      ∃ result w', (i.run World.host).run w = (result, w') ∧
        (∀ f, w.source i.input = .error f → result = .error f ∧ exitStatus result = 1 ∧ w' = w) ∧
        (∀ source e, w.source i.input = .ok source → compile source = .error e →
          result = .error (.compilation e) ∧ exitStatus result = 1 ∧ w' = w) ∧
        (∀ source c, w.source i.input = .ok source → compile source = .ok c →
          i.Leaves kinds c w result w') ∧
        (w.files.entry? (w.files.start i.outDir) = some .directory →
          ((Path.ofString i.outDir).names.length ≤ 1 ∨
            (Path.ofString i.outDir).names.getLast? ≠ some ".") →
          (((World.host.createDirs i.outDir).run w).1 = .ok () ↔
            ∀ loc ∈ w.files.trail i.outDir, ∀ contents,
              w.files.entry? loc ≠ some (.file contents)))) ∧
    ∀ args i, parseArguments args = .compile i →
      ∃ g : Gathered, args.foldlM Gathered.add {} = .ok g ∧ g.input = some i.input ∧
        i.printAssembly = decide (g.asmFlags ≠ 0) ∧ i.outDir = g.outDirs.head?.getD "." ∧
        Selection.wanted? g.kinds i.printAssembly = some i.selection ∧
        (runCommand World.host args).run w =
          (.ofResult ((i.run World.host).run w).1, ((i.run World.host).run w).2) := by
  refine ⟨fun i kinds hwanted => ⟨Selection.eq_empty_iff_of_wanted? hwanted,
    ((i.run World.host).run w).1, ((i.run World.host).run w).2, rfl, fun f hsource => ?_,
    fun source e hsource hcompile => ?_,
    fun source c hsource hcompile => Invocation.leaves_of_compile hwanted hsource hcompile,
    @World.run_createDirs_eq_ok_iff i.outDir w⟩, fun args i hargs => ?_⟩
  · rw [Invocation.run_of_unreadable hsource]
    exact ⟨rfl, rfl, rfl⟩
  · rw [(Invocation.run_of_compile hsource).1 e hcompile]
    exact ⟨rfl, rfl, rfl⟩
  · obtain ⟨g, hg, hinput, hprint, hdir, hwanted⟩ := exists_gathered hargs
    exact ⟨g, hg, hinput, hprint, hdir, hwanted, run_runCommand hargs w⟩

/-- A machine with one file, a source that reads a name without a value. -/
def unsetNameWorld : World where
  files := (FileSystem.ofWorkingDir ["home"]).withFile ["home", "p.c"] "x = 1; return x * y;".toUTF8

theorem effects_of_command_unsetName :
    parseArguments ["p.c", "-o", "out/new"] = .compile ⟨"p.c", false, "out/new", .all⟩ ∧
    ∃ outcome w', (runCommand World.host ["p.c", "-o", "out/new"]).run unsetNameWorld =
        (outcome, w') ∧
      outcome.status = 1 ∧ w'.output = "" ∧
      w'.files.entry? ["home", "out"] = some .directory ∧
      w'.files.entry? ["home", "out", "new"] = some .directory ∧
      w'.files.entry? ["home", "p.c"] = some (.file "x = 1; return x * y;".toUTF8) := by
  have hargs : parseArguments ["p.c", "-o", "out/new"] =
      .compile ⟨"p.c", false, "out/new", .all⟩ := by decide
  have hsource : unsetNameWorld.source "p.c" = .ok "x = 1; return x * y;" := by rfl
  have hcode : (compile "x = 1; return x * y;").map Compilation.code =
      .ok [.mov (.named "x") (.imm 1),
        .arith .mul (.temp 0) (.var (.named "x")) (.var (.named "y")), .ret (.var (.temp 0))] := by
    decide +kernel
  have htrail : unsetNameWorld.files.trail "out/new" =
      [["home", "out"], ["home", "out", "new"]] := by decide
  obtain ⟨hinvocations, harguments⟩ := effects_of_command unsetNameWorld
  obtain ⟨g, hg, -, -, -, hwanted, hcommand⟩ := harguments _ _ hargs
  obtain ⟨-, result, w', hrun, -, -, hleaves, hcreate⟩ := hinvocations _ _ hwanted
  have hkinds : g.kinds = [] := by
    cases hg
    rfl
  rw [hrun] at hcommand
  have hmade : ((World.host.createDirs "out/new").run unsetNameWorld).1 = .ok () := by
    refine (hcreate rfl (.inr (by decide))).mpr ?_
    rw [htrail]
    simp only [List.forall_mem_cons, List.not_mem_nil, false_imp_iff, implies_true, and_true]
    exact ⟨nofun, nofun⟩
  rcases hcompile : compile "x = 1; return x * y;" with e | c
  · rw [hcompile] at hcode
    cases hcode
  · obtain ⟨-, houtput, -, -, hdelivers⟩ := hleaves _ c hsource hcompile
    obtain ⟨done, rest, hfiles, hdelivered, hstatus, -⟩ := hdelivers (by decide) hmade
    -- the value is missing, so not all files are written
    have hvalue : ("ir_emulate_result.txt", Except.error (.uninitialized (.named "y"))) ∈
        c.requestedFiles g.kinds false := by
      rw [hcompile] at hcode
      rw [hkinds, Compilation.requestedFiles, Compilation.fileTable, Except.ok.inj hcode]
      exact List.mem_of_mem_drop (i := 4) (List.mem_cons_self ..)
    have hrest : rest ≠ [] := by
      rintro rfl
      rw [hfiles, List.append_nil] at hvalue
      obtain ⟨f, -, hf⟩ := List.mem_map.mp hvalue
      cases congrArg Prod.snd hf
    rw [if_neg hrest] at hstatus
    have hdirectories := hdelivered.directories
    rw [htrail] at hdirectories
    refine ⟨hargs, _, w', hcommand, hstatus, houtput, hdirectories _ (by simp),
      hdirectories _ (by simp), ?_⟩
    rw [hdelivered.kept _ (by rw [htrail]; decide)]
    · rfl
    · have hplace : unsetNameWorld.files.place "out/new" = ["home", "out", "new"] := by decide
      intro f _ hsame
      simp [hplace] at hsame

end StraightLine
