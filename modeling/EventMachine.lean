import EventMachine.Main
import EventMachine.Proofs.Compile.Lowering
import EventMachine.Proofs.Compile.Conditions
import EventMachine.Proofs.Compile.Entries
import EventMachine.Proofs.Compile.WellFormed
import EventMachine.Proofs.Compile.Redeclaration
import EventMachine.Proofs.Machine.Typing
import EventMachine.Proofs.Machine.Expansion
import EventMachine.Proofs.Machine.Fleet
import EventMachine.Proofs.Machine.InitPath
import EventMachine.Proofs.Machine.Lifetime
import EventMachine.Proofs.Syntax.Grammar
import EventMachine.Proofs.Syntax.Derivation
import EventMachine.Proofs.Source.Line
import EventMachine.Proofs.Lexer.Rule
import EventMachine.Proofs.Lexer.Words
import EventMachine.Proofs.Syntax.Literal
import EventMachine.Proofs.Syntax.Printing
import EventMachine.Proofs.Compile.Narrowing
import EventMachine.Proofs.Source.LogicalLine
import EventMachine.Proofs.Lexer.Tokens
import EventMachine.Proofs.Checksum
import EventMachine.Proofs.Compile.Delivery
import EventMachine.Proofs.Lexer.Coverage
import EventMachine.Proofs.Source.Continuation
import EventMachine.Proofs.Syntax.Continuation
import EventMachine.Proofs.Syntax.Relocation
import EventMachine.Proofs.Compile.Constraints
import EventMachine.Proofs.Machine.Dispatch
import EventMachine.Proofs.Machine.Binding
import EventMachine.Proofs.NameOrder
import EventMachine.Proofs.Syntax.Following
import EventMachine.Proofs.Syntax.FirstMismatch
import EventMachine.Proofs.Source.InvalidBytes
import EventMachine.Proofs.Lexer.Termination
import EventMachine.Proofs.Syntax.Unreadable
import EventMachine.Proofs.Compile.Warnings
import EventMachine.Proofs.Compile.Extension
import EventMachine.Proofs.Machine.Uniform
import EventMachine.Proofs.Compile.Reordering
import EventMachine.Proofs.Machine.Arguments
import EventMachine.Proofs.Machine.Calls
import EventMachine.Proofs.Lexer.Ending
import EventMachine.Proofs.Lexer.Order
import EventMachine.Proofs.Syntax.Diagnostic
import EventMachine.Proofs.Compile.HostGrowth
import EventMachine.Proofs.Machine.Observation
import EventMachine.Proofs.Lexer.Lexeme
import EventMachine.Proofs.Lexer.Step
import EventMachine.Proofs.Lexer.Blank
import EventMachine.Proofs.Syntax.Names
import EventMachine.Proofs.Syntax.LineEnds
import EventMachine.Proofs.Lexer.Boundary
import EventMachine.Proofs.Syntax.Value
import EventMachine.Proofs.Lexer.Parted
import EventMachine.Proofs.Syntax.Layout
import EventMachine.Proofs.Syntax.Escape
import EventMachine.Proofs.Text.Trim
import EventMachine.Proofs.Json.Reading
import EventMachine.Proofs.Session.Line
import EventMachine.Proofs.Session.Script
import EventMachine.Proofs.Syntax.Located
import EventMachine.Proofs.Compile.Blame
import EventMachine.Proofs.Checksum.Remainder
import EventMachine.Proofs.Source.Reads
import EventMachine.Proofs.Declarations
