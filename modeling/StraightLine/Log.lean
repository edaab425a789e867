import StraightLine.Assembly.RegisterFile
import StraightLine.Code.Instr
import StraightLine.Grammar.Observer
import StraightLine.SymbolTable

/-!
# The log

What the stages of a compilation tell about their work. An entry is a value that says what happened;
its level, the stage it comes from and its wording are functions of it.

## Main definitions

* `LogEntry` — something that happened
* `LogEntry.level`, `LogEntry.target`, `LogEntry.message` — how it is reported
* `Log` — entries in the order in which they happened
* `Log.upTo` — the entries that a listener of a given level hears
-/

namespace StraightLine

/-- How detailed an entry is, from coarse to fine. -/
inductive LogLevel where
  /-- For users. -/
  | info
  /-- The decisions of a stage. -/
  | debug
  /-- Every single step. -/
  | trace
  deriving DecidableEq, Repr

/-- The name of a level. -/
def LogLevel.name : LogLevel → String
  | .info => "INFO"
  | .debug => "DEBUG"
  | .trace => "TRACE"

/-- The place of a level among the others. -/
def LogLevel.rank : LogLevel → Nat
  | .info => 0
  | .debug => 1
  | .trace => 2

/-- Something that happened. -/
inductive LogEntry where
  /-- A token was read. -/
  | token (t : Token)
  /-- A step of the parse is about to be told to the observers. -/
  | event (e : Event)
  /-- A declaration met a name that had a type. -/
  | redeclared (name : String) (previous : SourceType)
  /-- A declaration gave a type to a name. -/
  | typed (name : String) (type : SourceType)
  /-- An instruction was added to the code. -/
  | emitted (i : Instr)
  /-- An instruction is about to run. -/
  | executing (i : Instr)
  /-- A register was taken. -/
  | taken (r : Register) (who : Resident)
  /-- A register was freed. -/
  | freed (r : Register) (who : Resident)
  /-- A line was added to the assembly. -/
  | line (l : AsmLine)
  /-- All tokens are read. -/
  | scanned (tokens symbols : Nat)
  /-- All code is emitted. -/
  | analysed (instructions : Nat)
  /-- All assembly is emitted. -/
  | assembled (lines : Nat)
  deriving DecidableEq, Repr

namespace LogEntry

/-- How detailed an entry is. -/
def level : LogEntry → LogLevel
  | token _ | emitted _ | executing _ | line _ => .trace
  | event _ | redeclared .. | typed .. | taken .. | freed .. => .debug
  | scanned .. | analysed _ | assembled _ => .debug

/-- The stage that an entry comes from. -/
def target : LogEntry → String
  | token _ => "minicc::lex"
  | event _ => "minicc::parse"
  | redeclared .. | typed .. => "minicc::semantic::binding"
  | emitted _ => "minicc::semantic::lowering"
  | executing _ => "minicc::ir"
  | taken .. | freed .. => "minicc::codegen::regs"
  | line _ => "minicc::codegen"
  | scanned .. | analysed _ | assembled _ => "minicc::pipeline"

/-- The wording of an entry. -/
def message : LogEntry → String
  | token t => "token " ++ t.render
  | event e => e.render
  | redeclared name previous => "`" ++ name ++ "` redeclared, was " ++ previous.name
  | typed name type => "bind `" ++ name ++ "`: " ++ type.name
  | emitted i => "emit " ++ i.render
  | executing i => "emulate " ++ i.render
  | taken r who => "bind " ++ r.render ++ " to " ++ who.render
  | freed r who => "release " ++ r.render ++ " from " ++ who.render
  | line l => "\t" ++ l.render
  | scanned tokens symbols =>
    Decimal.ofNat tokens ++ " tokens, " ++ Decimal.ofNat symbols ++ " symbols"
  | analysed instructions => Decimal.ofNat instructions ++ " IR instructions"
  | assembled lines => Decimal.ofNat lines ++ " assembly lines"

end LogEntry

/-- What happened, in order. -/
abbrev Log := Array LogEntry

/-- The entries that are no more detailed than a level. -/
def Log.upTo (level : LogLevel) (log : Log) : List LogEntry :=
  log.toList.filter fun e => e.level.rank ≤ level.rank

end StraightLine
