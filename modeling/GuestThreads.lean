import GuestThreads.Bridge
import GuestThreads.Bytes
import GuestThreads.Closures
import GuestThreads.Command
import GuestThreads.Command.Options
import GuestThreads.Config
import GuestThreads.Config.Document
import GuestThreads.Cursor
import GuestThreads.Engine
import GuestThreads.Fault
import GuestThreads.Files
import GuestThreads.Layout
import GuestThreads.Leb128
import GuestThreads.Log
import GuestThreads.Mailbox
import GuestThreads.Main
import GuestThreads.MemoryView
import GuestThreads.Monitor
import GuestThreads.Monitor.View
import GuestThreads.Orchestra
import GuestThreads.Scripted
import GuestThreads.Signal
import GuestThreads.Text.Base64
import GuestThreads.Text.Blank
import GuestThreads.Text.Columns
import GuestThreads.Text.Date
import GuestThreads.Text.Decimal
import GuestThreads.Text.Format
import GuestThreads.Text.Literal
import GuestThreads.Text.Numeral
import GuestThreads.Text.Printable
import GuestThreads.Text.Quoted
import GuestThreads.Trace
import GuestThreads.Wasm.Assembly
import GuestThreads.Wasm.Decoder
import GuestThreads.Wasm.Import
import GuestThreads.Wasm.Instr
import GuestThreads.Wasm.Interpreter
import GuestThreads.Wasm.Linking
import GuestThreads.Wasm.Machine
import GuestThreads.Wasm.Memory
import GuestThreads.Wasm.Module
import GuestThreads.Wasm.Trampoline
import GuestThreads.Wasm.Trap
import GuestThreads.Wasm.Types
import GuestThreads.Wasm.Validity
import GuestThreads.Worker
import GuestThreads.Worker.State
import GuestThreads.World
import GuestThreads.World.Engine
import GuestThreads.World.Guest
import GuestThreads.World.Runtime
import GuestThreads.World.Worker
import GuestThreads.Yaml.Node
import GuestThreads.Yaml.Node.Parser
import GuestThreads.Yaml.Scalar
import GuestThreads.Yaml.Source
import GuestThreads.Yaml.Token
import GuestThreads.Yaml.Token.Lexer
import GuestThreads.Yaml.Value
import GuestThreads.Proofs.Worker.BringUp
import GuestThreads.Proofs.World.Frame
import GuestThreads.Proofs.World.Guests
import GuestThreads.Proofs.World.Journal
import GuestThreads.Proofs.Reading
import GuestThreads.Proofs.Wasm.ImportScan
import GuestThreads.Proofs.Mailbox.Exchange
import GuestThreads.Proofs.Mailbox.Fifo
import GuestThreads.Proofs.Mailbox.Wakeups
import GuestThreads.Proofs.Mailbox.Discarding
import GuestThreads.Proofs.Mailbox.Draining
import GuestThreads.Proofs.Layout
import GuestThreads.Proofs.World.Spawning
import GuestThreads.Proofs.Wasm.Assembly
import GuestThreads.Proofs.Wasm.Trampoline
import GuestThreads.Proofs.MemoryImport
import GuestThreads.Proofs.MemoryView
import GuestThreads.Proofs.World.Process
import GuestThreads.Proofs.World.Courses
import GuestThreads.Proofs.World.Parties
import GuestThreads.Proofs.World.Hosting
import GuestThreads.Proofs.World.SingleShot
import GuestThreads.Proofs.World.Wiring
import GuestThreads.Proofs.World.Duties
import GuestThreads.Proofs.World.Traffic
import GuestThreads.Proofs.World.Signals
import GuestThreads.Proofs.Wasm.Decoded
import GuestThreads.Proofs.World.Matched
import GuestThreads.Proofs.World.Memories
import GuestThreads.Proofs.World.Requests
import GuestThreads.Proofs.World.Lineup
import GuestThreads.Proofs.World.Usability
import GuestThreads.Proofs.Wasm.Posting
import GuestThreads.Proofs.Wasm.Linked
import GuestThreads.Proofs.World.Calls
import GuestThreads.Proofs.World.Instantiation
import GuestThreads.Proofs.Wasm.Memory
import GuestThreads.Proofs.Wasm.Machine
import GuestThreads.Proofs.Wasm.Evolution
import GuestThreads.Proofs.Wasm.Interpreter
import GuestThreads.Proofs.World.Population
import GuestThreads.Proofs.Wasm.Access
import GuestThreads.Proofs.World.Isolation
import GuestThreads.Proofs.World.Sharing
import GuestThreads.Proofs.World.Windows
import GuestThreads.Proofs.Wasm.Alike
import GuestThreads.Proofs.World.Renaming
import GuestThreads.Proofs.World.Agreement
import GuestThreads.Proofs.Wasm.Accumulator
import GuestThreads.Proofs.World.Counting.Load
import GuestThreads.Proofs.World.Achieving
import GuestThreads.Proofs.World.Counting.Instances
import GuestThreads.Proofs.World.Counting.Contract
import GuestThreads.Proofs.World.Counting.Code
import GuestThreads.Proofs.World.Counting.Threads
import GuestThreads.Proofs.World.Counting.Spawns
import GuestThreads.Proofs.World.Counting
import GuestThreads.Proofs.Bridge
import GuestThreads.Proofs.Fault
import GuestThreads.Proofs.Layout.Wraparound
import GuestThreads.Proofs.Leb128
import GuestThreads.Proofs.Leb128.Canonical
import GuestThreads.Proofs.Leb128.Signed
import GuestThreads.Proofs.Wasm.Truncation
import GuestThreads.Proofs.Worker.Attribution
import GuestThreads.Proofs.World.Attribution
import GuestThreads.Proofs.World.Rejection
import GuestThreads.Proofs.World.Shutdown
import GuestThreads.Proofs.World.Closing
import GuestThreads.Proofs.World.Lookalike
import GuestThreads.Proofs.World.CompileCache
import GuestThreads.Proofs.World.Tenure
import GuestThreads.Proofs.World.Completion
import GuestThreads.Proofs.Text.Literal
import GuestThreads.Proofs.Wasm.Signature
import GuestThreads.Proofs.Closures
import GuestThreads.Proofs.Fault.Grouping
import GuestThreads.Proofs.World.Verdicts
import GuestThreads.Proofs.Cursor
import GuestThreads.Proofs.Wasm.ScanBounds
import GuestThreads.Proofs.Monitor
