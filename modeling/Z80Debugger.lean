import Z80Debugger.Address
import Z80Debugger.Breakpoint.Basic
import Z80Debugger.Breakpoint.Store
import Z80Debugger.Breakpoint.Text
import Z80Debugger.Command
import Z80Debugger.Console.Options
import Z80Debugger.Console.Program
import Z80Debugger.Console.Prompt
import Z80Debugger.Console.Report
import Z80Debugger.Core
import Z80Debugger.Cpu.Alu
import Z80Debugger.Cpu.Condition
import Z80Debugger.Cpu.Flow
import Z80Debugger.Cpu.Registers
import Z80Debugger.Cpu.Run
import Z80Debugger.Cpu.State
import Z80Debugger.Cpu.Word
import Z80Debugger.Debugger
import Z80Debugger.Disassembly
import Z80Debugger.Instruction.Basic
import Z80Debugger.Instruction.Decode
import Z80Debugger.Instruction.Text
import Z80Debugger.Listing.Cursor
import Z80Debugger.Listing.Walk
import Z80Debugger.Machine
import Z80Debugger.Main
import Z80Debugger.Memory.Bytes
import Z80Debugger.Memory.Layout
import Z80Debugger.Proofs.Breakpoint.Account
import Z80Debugger.Proofs.Breakpoint.Armed
import Z80Debugger.Proofs.Breakpoint.Canonical
import Z80Debugger.Proofs.Breakpoint.Change
import Z80Debugger.Proofs.Breakpoint.History
import Z80Debugger.Proofs.Breakpoint.Keywords
import Z80Debugger.Proofs.Breakpoint.Log
import Z80Debugger.Proofs.Breakpoint.Marker
import Z80Debugger.Proofs.Breakpoint.Paged
import Z80Debugger.Proofs.Breakpoint.Registry
import Z80Debugger.Proofs.Breakpoint.RoundTrip
import Z80Debugger.Proofs.Breakpoint.Spelling
import Z80Debugger.Proofs.Breakpoint.Toggle
import Z80Debugger.Proofs.Command.Line
import Z80Debugger.Proofs.Console.Commands
import Z80Debugger.Proofs.Console.Defaults
import Z80Debugger.Proofs.Console.Dialogue
import Z80Debugger.Proofs.Console.Image
import Z80Debugger.Proofs.Console.Layouts
import Z80Debugger.Proofs.Console.Procedure
import Z80Debugger.Proofs.Core.Execution
import Z80Debugger.Proofs.Core.Handles
import Z80Debugger.Proofs.Core.ReadOnly
import Z80Debugger.Proofs.Core.Resumption
import Z80Debugger.Proofs.Core.Schedule
import Z80Debugger.Proofs.Core.Stops
import Z80Debugger.Proofs.Core.Transparency
import Z80Debugger.Proofs.Core.Watchpoints
import Z80Debugger.Proofs.Cpu.Control
import Z80Debugger.Proofs.Cpu.Footprint
import Z80Debugger.Proofs.Cpu.Frame
import Z80Debugger.Proofs.Cpu.Interpreter
import Z80Debugger.Proofs.Cpu.Meaning
import Z80Debugger.Proofs.Debugger.Armed
import Z80Debugger.Proofs.Debugger.Failure
import Z80Debugger.Proofs.Debugger.InPlace
import Z80Debugger.Proofs.Debugger.Operation
import Z80Debugger.Proofs.Debugger.Rest
import Z80Debugger.Proofs.Debugger.Selection
import Z80Debugger.Proofs.Debugger.View
import Z80Debugger.Proofs.Instruction.Code
import Z80Debugger.Proofs.Instruction.Flow
import Z80Debugger.Proofs.Instruction.Reading
import Z80Debugger.Proofs.Instruction.Target
import Z80Debugger.Proofs.Listing.Lines
import Z80Debugger.Proofs.Listing.Previous
import Z80Debugger.Proofs.Listing.Selection
import Z80Debugger.Proofs.Listing.Stride
import Z80Debugger.Proofs.Machine.Account
import Z80Debugger.Proofs.Machine.Control
import Z80Debugger.Proofs.Machine.Effect
import Z80Debugger.Proofs.Machine.Operation
import Z80Debugger.Proofs.Machine.Resumption
import Z80Debugger.Proofs.Machine.Supply
import Z80Debugger.Proofs.Memory.Loading
import Z80Debugger.Proofs.Memory.Paging
import Z80Debugger.Proofs.Stepping.Activation
import Z80Debugger.Proofs.Stepping.Finish
import Z80Debugger.Proofs.Stepping.Hits
import Z80Debugger.Proofs.Stepping.Into
import Z80Debugger.Proofs.Stepping.Over
import Z80Debugger.Proofs.Stepping.OverHalt
import Z80Debugger.Proofs.Stepping.Trampoline
import Z80Debugger.Proofs.Symbols.Definition
import Z80Debugger.Proofs.Symbols.Directions
import Z80Debugger.Proofs.Symbols.Parse
import Z80Debugger.Proofs.Symbols.Pattern
import Z80Debugger.Proofs.Text.Case
import Z80Debugger.Proofs.Text.Decimal
import Z80Debugger.Proofs.Text.Lines
import Z80Debugger.Proofs.Text.Numeral
import Z80Debugger.Proofs.Text.Pattern
import Z80Debugger.Proofs.Text.Words
import Z80Debugger.Proofs.Traps.Registered
import Z80Debugger.Proofs.Traps.Requests
import Z80Debugger.Stepping
import Z80Debugger.Symbols.File
import Z80Debugger.Symbols.Load
import Z80Debugger.Symbols.Table
import Z80Debugger.Text.Cluster
import Z80Debugger.Text.ClusterClass
import Z80Debugger.Text.Decimal
import Z80Debugger.Text.Hex
import Z80Debugger.Text.Pieces
import Z80Debugger.Text.Ranges
import Z80Debugger.Text.Typing
import Z80Debugger.Text.WordCharacter
import Z80Debugger.Trap
