import StraightLine.Artifact

/-!
# Command-line options

The command takes one file name. The flag `-S` prints the assembly, the option `-o` or `--out-dir`
names the directory for artifacts, and `--dump` asks for a kind of artifact and may be given several
times. A value stands behind its option, or is attached to it; flags of one letter can be grouped;
two dashes end the options, and a single dash is no option at all.

Arguments are taken from left to right. Asking for help or for the version ends this at once, and so
does an argument that is no option of the command or a second file name. Everything else is asked at
the end: whether the file name is there, whether an option was repeated that may not be, whether the
values are good, and whether every option that was given has a value. An option that is given
several times needs one value among them, not one each time.

## Main definitions

* `Invocation` — a command that can run
* `Request` — what the arguments ask for
* `Selection.wanted?` — the artifacts that kinds and the flag ask for
* `parseArguments` — from arguments to a request
-/

namespace StraightLine

/-- A command that can run. -/
structure Invocation where
  /-- The file to compile, a single dash for the standard input. -/
  input : String
  /-- Whether to print the assembly. -/
  printAssembly : Bool
  /-- The directory for artifacts. -/
  outDir : String
  /-- The artifacts to write. -/
  selection : Selection
  deriving DecidableEq, Repr

/-- What the arguments of a command ask for. -/
inductive Request where
  /-- To compile a file. -/
  | compile (i : Invocation)
  /-- To show the version. -/
  | version
  /-- To show how the command is used. -/
  | help
  /-- Nothing that the command can do. -/
  | invalid
  deriving DecidableEq, Repr

/-- The artifacts that are wanted: those of the kinds that are named; if none is named, all of them,
unless the assembly is printed. A name that is no kind asks for nothing that there is. -/
def Selection.wanted? (kinds : List String) (printAssembly : Bool) : Option Selection :=
  match kinds with
  | [] => some (if printAssembly then .empty else .all)
  | kinds => (ofKinds kinds).toOption

/-- The options that take a value. -/
inductive ValueOption where
  /-- The directory for artifacts. -/
  | outDir
  /-- A kind of artifact. -/
  | dump
  deriving DecidableEq, Repr

/-- What has been gathered from the arguments so far. -/
structure Gathered where
  /-- The file name. -/
  input : Option String := none
  /-- How often the assembly was asked for. -/
  asmFlags : Nat := 0
  /-- How often the option for the directory was given. -/
  outDirFlags : Nat := 0
  /-- The directories that were named. -/
  outDirs : List String := []
  /-- How often the option for artifacts was given. -/
  dumpFlags : Nat := 0
  /-- The kinds of artifact that were named. -/
  kinds : List String := []
  /-- An option whose value is due next. -/
  awaiting : Option ValueOption := none
  /-- Whether the options have been ended. -/
  optionsEnded : Bool := false
  deriving DecidableEq, Repr

namespace Gathered

/-- Give up waiting for a value. -/
def stopAwaiting (g : Gathered) : Gathered :=
  { g with awaiting := none }

/-- Count an occurrence of an option. -/
def addOccurrence (g : Gathered) : ValueOption → Gathered
  | .outDir => { g with outDirFlags := g.outDirFlags + 1 }
  | .dump => { g with dumpFlags := g.dumpFlags + 1 }

/-- Take the value of an option. -/
def addValue (g : Gathered) (value : String) : ValueOption → Gathered
  | .outDir => { g with awaiting := none, outDirs := g.outDirs ++ [value] }
  | .dump => { g with awaiting := none, kinds := g.kinds ++ [value] }

/-- Take an option, with its value if that is attached. -/
def addOption (g : Gathered) (o : ValueOption) : Option String → Gathered
  | some value => (g.addOccurrence o).addValue value o
  | none => { g.addOccurrence o with awaiting := some o }

/-- Take a file name. There is room for one. -/
def addInput (g : Gathered) (name : String) : Except Request Gathered :=
  match g.input with
  | some _ => .error .invalid
  | none => .ok { g with input := some name }

/-- Take an option that is spelled out: its name, then perhaps a value behind an equals sign. -/
def addLong (g : Gathered) (name : String) (value : Option String) : Except Request Gathered :=
  match name, value with
  | "out-dir", value => .ok (g.addOption .outDir value)
  | "dump", value => .ok (g.addOption .dump value)
  | "version", none => .error .version
  | "help", none => .error .help
  | _, _ => .error .invalid

/-- Take a group of options of one letter. The rest of the group behind an option that takes a value
is its value, with or without an equals sign in between. -/
def addShort (g : Gathered) : List Char → Except Request Gathered
  | [] => .ok g
  | 'S' :: cs => addShort { g with asmFlags := g.asmFlags + 1 } cs
  | 'V' :: _ => .error .version
  | 'h' :: _ => .error .help
  | ['o'] => .ok (g.addOption .outDir none)
  | 'o' :: '=' :: cs => .ok (g.addOption .outDir (some (String.ofList cs)))
  | 'o' :: cs => .ok (g.addOption .outDir (some (String.ofList cs)))
  | _ => .error .invalid

/-- The name of a spelled-out option and what is attached to it. -/
def splitLong (cs : List Char) : String × Option String :=
  match cs.dropWhile (· ≠ '=') with
  | [] => (String.ofList cs, none)
  | _ :: value => (String.ofList (cs.takeWhile (· ≠ '=')), some (String.ofList value))

/-- Take an argument that is no option: a value that is due, or the file name. -/
def addPlain (g : Gathered) (arg : String) : Except Request Gathered :=
  match g.awaiting with
  | some o => .ok (g.addValue arg o)
  | none => g.addInput arg

/-- Take one argument. -/
def add (g : Gathered) (arg : String) : Except Request Gathered :=
  if g.optionsEnded then g.addInput arg
  else
    match arg.toList with
    | ['-'] => g.addPlain arg
    | ['-', '-'] => .ok { g.stopAwaiting with optionsEnded := true }
    | '-' :: '-' :: cs =>
      let (name, value) := splitLong cs
      g.stopAwaiting.addLong name value
    | '-' :: cs => g.stopAwaiting.addShort cs
    | _ => g.addPlain arg

/-- The artifacts that are wanted. -/
def selection? (g : Gathered) : Option Selection :=
  Selection.wanted? g.kinds (g.asmFlags ≠ 0)

/-- Whether an option was given and went without a value every time. -/
def lacksValue (g : Gathered) : Bool :=
  (g.outDirFlags > 0 && g.outDirs.isEmpty) || (g.dumpFlags > 0 && g.kinds.isEmpty)

/-- Whether an option was repeated that may be given only once. -/
def repeatsOption (g : Gathered) : Bool :=
  g.asmFlags > 1 || g.outDirFlags > 1

/-- What all arguments together ask for. -/
def request (g : Gathered) : Request :=
  if g.lacksValue || g.repeatsOption then .invalid
  else
    match g.input, g.selection? with
    | some input, some selection =>
      .compile {
        input
        printAssembly := g.asmFlags ≠ 0
        outDir := g.outDirs.head?.getD "."
        selection }
    | _, _ => .invalid

end Gathered

/-- What the arguments of a command ask for. -/
def parseArguments (args : List String) : Request :=
  match args.foldlM Gathered.add {} with
  | .ok g => g.request
  | .error r => r

end StraightLine
