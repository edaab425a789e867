import StraightLine.Action
import StraightLine.Analysis.AttributeStack
import StraightLine.Analysis.Emission
import StraightLine.Analysis.InPlace
import StraightLine.Analysis.State
import StraightLine.Analysis.Typing
import StraightLine.Artifact
import StraightLine.Assembly.Generator
import StraightLine.Assembly.Line
import StraightLine.Assembly.RegisterFile
import StraightLine.Code.Instr
import StraightLine.Code.Run
import StraightLine.Command.Options
import StraightLine.Command.Run
import StraightLine.Compilation
import StraightLine.Error
import StraightLine.Files.FileSystem
import StraightLine.Files.Host
import StraightLine.Files.Path
import StraightLine.Grammar.Descent
import StraightLine.Grammar.Observer
import StraightLine.Grammar.Parse
import StraightLine.Grammar.Production
import StraightLine.Grammar.Recorder
import StraightLine.Log
import StraightLine.Main
import StraightLine.Proofs.Action
import StraightLine.Proofs.Agreement
import StraightLine.Proofs.Analyst
import StraightLine.Proofs.Automaton
import StraightLine.Proofs.CommandEffects
import StraightLine.Proofs.Concatenation
import StraightLine.Proofs.Declarations
import StraightLine.Proofs.Descent
import StraightLine.Proofs.Directories
import StraightLine.Proofs.EarliestError
import StraightLine.Proofs.EventStream
import StraightLine.Proofs.Footprint
import StraightLine.Proofs.InPlace
import StraightLine.Proofs.Layout
import StraightLine.Proofs.Lexing
import StraightLine.Proofs.Listings
import StraightLine.Proofs.Lowering
import StraightLine.Proofs.Machine
import StraightLine.Proofs.Meaning
import StraightLine.Proofs.NameIndependence
import StraightLine.Proofs.Numerals
import StraightLine.Proofs.Occupancy
import StraightLine.Proofs.Outcome
import StraightLine.Proofs.Outline
import StraightLine.Proofs.Paths
import StraightLine.Proofs.PlaceValue
import StraightLine.Proofs.Preservation
import StraightLine.Proofs.Pressure
import StraightLine.Proofs.Reading
import StraightLine.Proofs.Reductions
import StraightLine.Proofs.RegisterDiscipline
import StraightLine.Proofs.RegisterFile
import StraightLine.Proofs.RegisterHistory
import StraightLine.Proofs.Renaming
import StraightLine.Proofs.ShiftReduce
import StraightLine.Proofs.SideBySide
import StraightLine.Proofs.Simulation
import StraightLine.Proofs.SingleUse
import StraightLine.Proofs.SourceText
import StraightLine.Proofs.Spelling
import StraightLine.Proofs.StackDiscipline
import StraightLine.Proofs.StackEffect
import StraightLine.Proofs.StaleStore
import StraightLine.Proofs.SymbolStack
import StraightLine.Proofs.SymbolTable
import StraightLine.Proofs.Syntax
import StraightLine.Proofs.TableHistory
import StraightLine.Proofs.TokenStream
import StraightLine.Proofs.Translation
import StraightLine.Proofs.ViablePrefix
import StraightLine.Proofs.Watching
import StraightLine.SymbolTable
import StraightLine.Text.Alphabetic
import StraightLine.Text.CodePoints
import StraightLine.Text.Decimal
import StraightLine.Text.GraphemeExtend
import StraightLine.Text.Lines
import StraightLine.Text.Quoted
import StraightLine.Text.Unprintable
import StraightLine.Token
import StraightLine.Token.Automaton
import StraightLine.Token.Lexer
