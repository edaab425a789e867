import StraightLine.Artifact
import StraightLine.Files.FileSystem

/-!
# Where a program runs

What a run needs from the machine around it: text to read, a place to print, directories and files.
A host offers these in a monad of its own, so that one and the same program runs on a real machine
and on a `World`, a machine that is a value.

## Main definitions

* `Host` — what a machine offers
* `Host.createDirs` — make a directory together with those around it
* `Host.writeArtifacts` — write the chosen files of a compilation into a directory
* `World`, `World.host` — a machine as a value
-/

namespace StraightLine

/-- What a machine offers to a program that runs on it. -/
structure Host (m : Type → Type) where
  /-- The text of the file at a path. -/
  readFile : String → m (Except FileError String)
  /-- All text of the standard input. -/
  readInput : m (Except FileError String)
  /-- Print to the standard output. -/
  print : String → m (Except FileError Unit)
  /-- Make a directory, where there must be nothing. -/
  makeDir : String → m (Except FileError Unit)
  /-- Whether a path leads to a directory. -/
  isDir : String → m Bool
  /-- Write a file, in place of one that is there. -/
  writeFile : String → String → m (Except FileError Unit)
  /-- Take note of log entries. -/
  note : Log → m Unit

/-- Why artifacts are not written. -/
inductive ArtifactError where
  /-- A file operation failed. -/
  | io (e : FileError)
  /-- The code has no value to write. -/
  | eval (e : EvalError)
  deriving DecidableEq, Repr

namespace ArtifactError

/-- The text of the error. -/
def message : ArtifactError → String
  | io _ => "I/O error"
  | eval e => e.message

/-- The chain of reasons, the nearest first. -/
def causes : ArtifactError → List String
  | io e => [message (io e), e.message]
  | eval e => [e.message]

end ArtifactError

namespace Host

variable {m : Type → Type} [Monad m]

/-- A directory that is there already is as good as made. -/
def acceptExisting (host : Host m) (dir : String) :
    Except FileError Unit → m (Except FileError Unit)
  | .error .alreadyExists => do
    if ← host.isDir dir then return .ok () else return .error .alreadyExists
  | result => return result

/-- Make the first directory of a list, if need be after those behind it, which it is inside of. -/
def createAll (host : Host m) : List String → m (Except FileError Unit)
  | [] => return .ok ()
  | dir :: enclosing => do
    match ← host.makeDir dir with
    | .error .notFound =>
      match ← host.createAll enclosing with
      | .ok _ => host.acceptExisting dir (← host.makeDir dir)
      | .error e => return .error e
    | result => host.acceptExisting dir result

/-- Make a directory together with those around it that are not there. -/
def createDirs (host : Host m) (dir : String) : m (Except FileError Unit) :=
  host.createAll (Path.ancestors dir)

/-- Write files into a directory, one after another, up to the first that fails. -/
def writeFiles (host : Host m) (dir : String) :
    List OutputFile → m (Except ArtifactError Unit)
  | [] => return .ok ()
  | f :: files => do
    host.note f.log
    match f.contents with
    | .error e => return .error (.eval e)
    | .ok contents =>
      match ← host.writeFile (joinPath dir f.name) contents with
      | .error e => return .error (.io e)
      | .ok _ => host.writeFiles dir files

/-- Write the chosen files of a compilation into a directory, which is made first. -/
def writeArtifacts (host : Host m) (c : Compilation) (s : Selection) (dir : String) :
    m (Except ArtifactError Unit) := do
  match ← host.createDirs dir with
  | .error e => return .error (.io e)
  | .ok _ => host.writeFiles dir (c.outputFiles s)

end Host

/-! ## A machine as a value -/

/-- A machine as a value. There is always room to print. -/
structure World where
  /-- Its files. -/
  files : FileSystem
  /-- What there is to read on the standard input. -/
  input : ByteArray := .empty
  /-- What has been printed. -/
  output : String := ""
  /-- What has been logged. -/
  log : Log := #[]

namespace World

/-- A file operation on the files of a world. -/
def onFiles {α : Type} (x : Action FileSystem FileError α) : StateM World (Except FileError α) :=
  fun w =>
    let (r, files) := x.run w.files
    (r, { w with files })

/-- A world as a host. -/
def host : Host (StateM World) where
  readFile path := do return (← get).files.readText path
  readInput := do return decodeText (← get).input
  print text := do
    modify fun w => { w with output := w.output ++ text }
    return .ok ()
  makeDir path := onFiles (FileSystem.makeDir path)
  isDir path := do return (← get).files.isDir path
  writeFile path contents := onFiles (FileSystem.writeText path contents)
  note entries := modify fun w => { w with log := w.log ++ entries }

end World

end StraightLine
