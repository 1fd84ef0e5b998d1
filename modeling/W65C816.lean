import W65C816.CommandLine.Listing
import W65C816.Interpreter.Concurrent
import W65C816.Interpreter.Reentry
import W65C816.Main
import W65C816.Program.Assembly
import W65C816.Registers.Reading
import W65C816.Trace.Journal
import W65C816.Proofs.Execution.Frame
import W65C816.Proofs.Execution.WellFormed
import W65C816.Proofs.Interpreter.Requests
import W65C816.Proofs.Interpreter.WellFormed
import W65C816.Proofs.Execution.Simulation
import W65C816.Proofs.Execution.Counting
import W65C816.Proofs.Execution.Access
import W65C816.Proofs.Execution.Guarded
import W65C816.Proofs.Execution.Widths
import W65C816.Proofs.Interpreter.Calls
import W65C816.Proofs.Interpreter.Runs
import W65C816.Proofs.Interpreter.Stages
import W65C816.Proofs.Interpreter.Lifecycle
import W65C816.Proofs.Interpreter.Isolation
import W65C816.Proofs.Interpreter.StraightLine
import W65C816.Proofs.Memory.Bytes
import W65C816.Proofs.Memory.Windows
import W65C816.Proofs.Program.Encoding
import W65C816.Proofs.Program.Writing
import W65C816.Proofs.Program.Reassembly
import W65C816.Proofs.Program.Walk
import W65C816.Proofs.Execution.Faults
import W65C816.Proofs.Execution.Instrumentation
import W65C816.Proofs.Execution.Lockstep
import W65C816.Proofs.Interpreter.Delivery
import W65C816.Proofs.Interpreter.Instrumentation
import W65C816.Proofs.Interpreter.Lockstep
import W65C816.Proofs.Interpreter.Settings
import W65C816.Proofs.Memory.Faults
import W65C816.Proofs.Memory.Rows
import W65C816.Proofs.Program.Hooks
import W65C816.Proofs.Execution.Steps
import W65C816.Proofs.Execution.Events
import W65C816.Proofs.Interpreter.Events
import W65C816.Proofs.Interpreter.Cancellation
import W65C816.Proofs.Interpreter.Trace
import W65C816.Proofs.Registers.DirectOperations
import W65C816.Proofs.Program.Exhaustion
import W65C816.Proofs.Arithmetic.Digits
import W65C816.Proofs.Arithmetic.Limbs
import W65C816.Proofs.Arithmetic.Multiprecision
import W65C816.Proofs.Execution.Outcomes
import W65C816.Proofs.Execution.BlockMoves
import W65C816.Proofs.Execution.Stack
import W65C816.Proofs.Execution.Returns
import W65C816.Proofs.Execution.Nesting
import W65C816.Proofs.Registers.Wrapping
import W65C816.Proofs.Execution.StackOrder
import W65C816.Proofs.Execution.SavedStatus
import W65C816.Proofs.Execution.LowBank
import W65C816.Proofs.Memory.Changes
import W65C816.Proofs.Memory.Banks
import W65C816.Proofs.Memory.Places
import W65C816.Proofs.Execution.InPlace
import W65C816.Proofs.Execution.Flags
import W65C816.Proofs.Execution.HiddenByte
import W65C816.Proofs.Execution.Congruence
import W65C816.Proofs.Execution.IdleByte
import W65C816.Proofs.Interpreter.IdleByte
import W65C816.Proofs.Program.Fetching
import W65C816.Proofs.Execution.Comparison
import W65C816.Proofs.Memory.AllOrNothing
import W65C816.Proofs.Execution.Atomicity
import W65C816.Proofs.Execution.Pushing
import W65C816.Proofs.Execution.Transfers
import W65C816.Proofs.Program.AllOrNothing
import W65C816.Proofs.Catalog.Directions
import W65C816.Proofs.Memory.Bytewise
import W65C816.Proofs.Memory.Nesting
import W65C816.Proofs.Memory.ByteMemory
import W65C816.Proofs.Addressing.ExactSums
import W65C816.Proofs.Execution.HookSlots
import W65C816.Proofs.Program.Reach
import W65C816.Proofs.CommandLine.Listing
import W65C816.Proofs.Text.Numerals
import W65C816.Proofs.Program.Encodings
import W65C816.Proofs.Program.Spelling
