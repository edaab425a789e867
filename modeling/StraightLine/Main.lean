import StraightLine.Command.Run

/-!
# The command

The command line on the machine that it is started on. All decisions are those of `runCommand`; here
the operations of a host are those of the operating system, and its failures get their names.
-/

namespace StraightLine

/-- The name of a failure of the operating system. -/
def FileError.ofSystem (e : IO.Error) : FileError :=
  match e with
  | .noFileOrDirectory .. => .notFound
  | .alreadyExists .. => .alreadyExists
  | .inappropriateType _ code _ => if code = 21 then .isDirectory else .notDirectory
  | e => .other (toString e)

/-- The result of an operation of the operating system. -/
def attempt {α : Type} (x : IO α) : IO (Except FileError α) := do
  try
    return .ok (← x)
  catch e =>
    return .error (.ofSystem e)

/-- The machine that the command is started on. -/
def machine : Host IO where
  readFile path := do
    return (← attempt (IO.FS.readBinFile path)).bind decodeText
  readInput := do
    return (← attempt do (← IO.getStdin).readBinToEnd).bind decodeText
  print text := attempt (IO.print text)
  makeDir path := attempt (IO.FS.createDir path)
  -- A directory, and nothing else, has itself under the name `.`.
  isDir path := do
    match ← attempt (IO.FS.realPath (joinPath path ".")) with
    | .ok _ => return true
    | .error _ => return false
  writeFile path contents := attempt (IO.FS.writeFile path contents)
  note _ := pure ()

end StraightLine

/-- Run the command and exit with its status. -/
def main (args : List String) : IO UInt32 := do
  let outcome ← StraightLine.runCommand StraightLine.machine args
  IO.eprint outcome.errors
  return outcome.status.toUInt32
