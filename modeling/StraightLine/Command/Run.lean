import StraightLine.Command.Options
import StraightLine.Files.Host

/-!
# Running the command

The source is read and compiled; then the assembly is printed if that was asked for, and the chosen
artifacts are written. The first failure ends the run. It is reported with what was being done and
the chain of its reasons.

## Main definitions

* `Failure` — why a run of the command fails, `Failure.report` its report
* `Invocation.run` — run a command on a host
* `Outcome` — the exit status and the error output
* `runCommand` — from arguments to the outcome, on a host
-/

namespace StraightLine

/-! ## Failures -/

/-- Why a run of the command fails. -/
inductive Failure where
  /-- The file cannot be read. -/
  | unreadableFile (path : String) (e : FileError)
  /-- The standard input cannot be read. -/
  | unreadableInput (e : FileError)
  /-- The source does not compile. -/
  | compilation (e : CompileError)
  /-- The assembly cannot be printed. -/
  | unprintable (e : FileError)
  /-- The artifacts cannot be written. -/
  | unwritable (dir : String) (e : ArtifactError)
  deriving DecidableEq, Repr

namespace Failure

/-- What was being done. -/
def context : Failure → String
  | unreadableFile path _ => "Failed to read: " ++ path
  | unreadableInput _ => "Failed to read from stdin"
  | compilation e => e.category
  | unprintable _ => "Failed to emit to stdout"
  | unwritable dir _ => "Failed to write artifacts to: " ++ dir

/-- The chain of reasons, the nearest first. -/
def causes : Failure → List String
  | unreadableFile _ e => [e.message]
  | unreadableInput e => [e.message]
  | compilation e => [e.message]
  | unprintable e => [e.message]
  | unwritable _ e => e.causes

/-- Reasons one to a line, numbered. -/
def numbered : Nat → List String → String
  | _, [] => ""
  | n, cause :: causes =>
    "    " ++ Decimal.ofNat n ++ ": " ++ cause ++ "\n" ++ numbered (n + 1) causes

/-- The reasons in a report: a single one is not numbered. -/
def renderCauses : List String → String
  | [cause] => "    " ++ cause ++ "\n"
  | causes => numbered 0 causes

/-- The report of a failure. -/
def report (f : Failure) : String :=
  "Error: " ++ f.context ++ "\n\nCaused by:\n" ++ renderCauses f.causes

end Failure

/-! ## Running -/

variable {m : Type → Type} [Monad m]

/-- The text to compile: that of a file, or the standard input for a single dash. -/
def Host.readSource (host : Host m) (input : String) : m (Except Failure String) := do
  if input = "-" then
    return (← host.readInput).mapError .unreadableInput
  else
    return (← host.readFile input).mapError (.unreadableFile input)

/-- Print the assembly, if that was asked for. -/
def Invocation.printWanted (i : Invocation) (host : Host m) (c : Compilation) :
    m (Except Failure Unit) := do
  if i.printAssembly then
    return (← host.print c.assemblyText).mapError .unprintable
  else
    return .ok ()

/-- Write the artifacts, if any are wanted. -/
def Invocation.writeWanted (i : Invocation) (host : Host m) (c : Compilation) :
    m (Except Failure Unit) := do
  if i.selection = .empty then
    return .ok ()
  else
    return (← host.writeArtifacts c i.selection i.outDir).mapError (.unwritable i.outDir)

/-- Print and write what a compilation gave. -/
def Invocation.deliver (i : Invocation) (host : Host m) (c : Compilation) :
    m (Except Failure Unit) := do
  match ← i.printWanted host c with
  | .error f => return .error f
  | .ok _ => i.writeWanted host c

/-- Run a command on a host. -/
def Invocation.run (i : Invocation) (host : Host m) : m (Except Failure Unit) := do
  match ← host.readSource i.input with
  | .error f => return .error f
  | .ok source =>
    match compile source with
    | .error e => return .error (.compilation e)
    | .ok c => i.deliver host c

/-- How a run of the command ended. -/
structure Outcome where
  /-- The exit status: 0 for success, 1 for a failure, 2 for arguments that ask for nothing. -/
  status : Nat
  /-- The error output. -/
  errors : String := ""
  deriving DecidableEq, Repr

/-- The exit status of a command that ran. -/
def exitStatus : Except Failure Unit → Nat
  | .ok _ => 0
  | .error _ => 1

/-- The error output of a command that ran. -/
def errorOutput : Except Failure Unit → String
  | .ok _ => ""
  | .error f => f.report

/-- How a command ended that ran. -/
def Outcome.ofResult (result : Except Failure Unit) : Outcome where
  status := exitStatus result
  errors := errorOutput result

/-- What the command shows of its version. -/
def versionText : String :=
  "minicc 1.0.0\n"

/-- What the command shows of its use. -/
def helpText : String :=
  unlines [
    "minicc 1.0.0",
    "Compiles a small C subset to RISC-V assembly",
    "",
    "USAGE:",
    "    minicc [OPTIONS] <FILE>",
    "",
    "ARGS:",
    "    <FILE>    Source file ('-' for stdin)",
    "",
    "OPTIONS:",
    "        --dump <KIND>      Artifacts to write (default: all, unless -S is given)",
    "                           [possible values: tokens, symbols, ir, eval, asm, all]",
    "    -h, --help             Print help information",
    "    -o, --out-dir <DIR>    Directory for intermediate artifacts [default: .]",
    "    -S                     Print assembly to stdout",
    "    -V, --version          Print version information"]

/-- What the command says when its arguments ask for nothing. -/
def usageText : String :=
  unlines ["error: invalid arguments", "", "USAGE:", "    minicc [OPTIONS] <FILE>", "",
    "For more information try --help"]

/-- Run the command with its arguments on a host. -/
def runCommand (host : Host m) (args : List String) : m Outcome := do
  match parseArguments args with
  | .version =>
    let _ ← host.print versionText
    return { status := 0 }
  | .help =>
    let _ ← host.print helpText
    return { status := 0 }
  | .invalid => return { status := 2, errors := usageText }
  | .compile i => return .ofResult (← i.run host)

end StraightLine
