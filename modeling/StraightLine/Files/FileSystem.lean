import StraightLine.Action
import StraightLine.Files.Path

/-!
# File systems

Files and directories as a value. A path is followed name by name, and every name but the last must
lead to a directory. What cannot be done fails with the reason that the operating system would give.

## Main definitions

* `FileError` — why a file operation fails
* `FileSystem` — files and directories by location, and a working directory
* `FileSystem.resolve` — the location that a path leads to
* `FileSystem.readText`, `FileSystem.makeDir`, `FileSystem.writeText` — the operations
* `FileSystem.workingTree` — all that is below the working directory
-/

namespace StraightLine

/-- Why a file operation fails. -/
inductive FileError where
  /-- There is nothing of that name. -/
  | notFound
  /-- There is something of that name already. -/
  | alreadyExists
  /-- A directory was needed. -/
  | notDirectory
  /-- A file was needed. -/
  | isDirectory
  /-- The contents are no text. -/
  | notText
  /-- Any other reason, in words. -/
  | other (reason : String)
  deriving DecidableEq, Repr

/-- The text of a file error. -/
def FileError.message : FileError → String
  | .notFound => "No such file or directory (os error 2)"
  | .alreadyExists => "File exists (os error 17)"
  | .notDirectory => "Not a directory (os error 20)"
  | .isDirectory => "Is a directory (os error 21)"
  | .notText => "stream did not contain valid UTF-8"
  | .other reason => reason

/-- The text that bytes encode. -/
def decodeText (bytes : ByteArray) : Except FileError String :=
  match String.fromUTF8? bytes with
  | some text => .ok text
  | none => .error .notText

/-- A place in a file system: the names that lead to it from the root. -/
abbrev Location := List String

/-- What is at a location. -/
inductive Entry where
  /-- A file with its contents. -/
  | file (contents : ByteArray)
  /-- A directory. -/
  | directory

/-- Files and directories. -/
structure FileSystem where
  /-- What is where. The root is a directory without being listed. -/
  entries : List (Location × Entry) := []
  /-- Where relative paths start. -/
  workingDir : Location := []

namespace FileSystem

/-- What is at a location, if anything. -/
def entry? (fs : FileSystem) (loc : Location) : Option Entry :=
  if loc = [] then some .directory else fs.entries.lookup loc

/-- Put something at a location, in place of what is there. -/
def put (fs : FileSystem) (loc : Location) (e : Entry) : FileSystem :=
  { fs with entries := (loc, e) :: fs.entries.filter (·.1 ≠ loc) }

/-! ## Following paths -/

/-- Where a name leads from a directory. -/
def follow (loc : Location) (name : String) : Location :=
  if name = "." then loc
  else if name = ".." then loc.dropLast
  else loc ++ [name]

/-- Where names lead from a location. Every location on the way must be a directory; the last one
need not be there. -/
def resolveFrom (fs : FileSystem) : Location → List String → Except FileError Location
  | loc, [] => .ok loc
  | loc, name :: names =>
    match fs.entry? loc with
    | some .directory => fs.resolveFrom (follow loc name) names
    | some (.file _) => .error .notDirectory
    | none => .error .notFound

/-- Where a path leads. The empty path leads nowhere. -/
def resolve (fs : FileSystem) (path : String) : Except FileError Location :=
  let p := Path.ofString path
  if p.absolute then fs.resolveFrom [] p.names
  else if p.names = [] then .error .notFound
  else fs.resolveFrom fs.workingDir p.names

/-! ## Operations -/

/-- Whether a path leads to a directory. -/
def isDir (fs : FileSystem) (path : String) : Bool :=
  match fs.resolve path with
  | .ok loc => match fs.entry? loc with
    | some .directory => true
    | _ => false
  | .error _ => false

/-- The text of a file. -/
def readText (fs : FileSystem) (path : String) : Except FileError String := do
  let loc ← fs.resolve path
  match fs.entry? loc with
  | some (.file contents) =>
    if (Path.ofString path).trailingSlash then .error .notDirectory else decodeText contents
  | some .directory => .error .isDirectory
  | none => .error .notFound

/-- Make a directory where there is nothing. -/
def makeDir (path : String) : Action FileSystem FileError Unit := fun fs =>
  match fs.resolve path with
  | .error e => (.error e, fs)
  | .ok loc =>
    match fs.entry? loc with
    | some _ => (.error .alreadyExists, fs)
    | none => (.ok (), fs.put loc .directory)

/-- Write a file, in place of the file that is there. -/
def writeText (path contents : String) : Action FileSystem FileError Unit := fun fs =>
  match fs.resolve path with
  | .error e => (.error e, fs)
  | .ok loc =>
    match fs.entry? loc with
    | some .directory => (.error .isDirectory, fs)
    | _ =>
      if (Path.ofString path).trailingSlash then (.error .isDirectory, fs)
      else (.ok (), fs.put loc (.file contents.toUTF8))

/-! ## Building and listing -/

/-- Make sure that a directory is there, with all those around it. -/
def withDirectory (fs : FileSystem) (loc : Location) : FileSystem :=
  (Path.beginnings loc ++ [loc]).foldl (fun fs loc =>
    match fs.entry? loc with
    | some .directory => fs
    | _ => fs.put loc .directory) fs

/-- Put a file at a location, with all directories around it. -/
def withFile (fs : FileSystem) (loc : Location) (contents : ByteArray) : FileSystem :=
  (fs.withDirectory loc.dropLast).put loc (.file contents)

/-- A file system that holds an empty working directory. -/
def ofWorkingDir (loc : Location) : FileSystem :=
  ({ workingDir := loc } : FileSystem).withDirectory loc

/-- All that is below the working directory, each with the names that lead to it from there. -/
def workingTree (fs : FileSystem) : List (Location × Entry) :=
  fs.entries.filterMap fun (loc, e) =>
    match fs.workingDir.isPrefixOf? loc with
    | some (name :: names) => some (name :: names, e)
    | _ => none

end FileSystem

end StraightLine
