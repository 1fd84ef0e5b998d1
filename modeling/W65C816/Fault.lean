import W65C816.Addressing.Mode
import W65C816.Instruction.OperandWidth
import W65C816.Opcode
import W65C816.Text.Hexadecimal

/-!
# Faults

Everything that can go wrong is a value of `Fault`, sorted by cause: a position outside a memory
view, an access to space that a banked view does not reach, an addressing mode that cannot serve a
request, a request that makes no sense in the situation it is made in, and a byte without an
instruction. The wording of a fault is given once, by `Fault.message`.
-/

set_option autoImplicit false

namespace W65C816

open Addressing Text

/-- What an addressing mode was asked for and cannot give. -/
inductive Unsupported where
  | effectiveAddress
  /-- The width of an immediate operand. -/
  | immediateOperand
  /-- The width of an operand that was to be written. -/
  | writtenWidth
deriving DecidableEq, Repr

/-- Why a request makes no sense in the situation it is made in. -/
inductive Misuse where
  /-- A memory of this size is too small or too large. -/
  | memorySize (size least greatest : Nat)
  /-- The byte was to be registered for the sentinel. -/
  | sentinelRegistered (code : UInt8)
  /-- The byte was already registered for `earlier` when `later` claimed it. -/
  | byteTaken (code : UInt8) (earlier later : Opcode)
  | notRegistered (opcode : Opcode)
  /-- The operation has several bytes, and none of them in this mode. -/
  | noEncoding (opcode : Opcode) (mode : Mode)
  /-- The instruction takes operands of another width. -/
  | operandMismatch (width : OperandWidth) (opcode : Opcode) (mode : Mode)
  | hooksExhausted (slots : Nat)
  /-- The interpreter is busy with another call. -/
  | alreadyRunning
  | workerPanicked
  /-- No worker could be started, for a reason that the system gives. -/
  | noWorker (why : String)
deriving DecidableEq, Repr

/-- The cause of a failed request. -/
inductive Fault where
  /-- The position lies outside a view of the given length. -/
  | outOfRange (position length : Nat)
  /-- The address lies in space that a banked view does not reach. -/
  | accessViolation (address : UInt32)
  /-- The addressing mode cannot be used for the request. -/
  | notSupported (mode : Mode) (what : Unsupported)
  /-- The request makes no sense in the situation it was made in. -/
  | invalidOperation (why : Misuse)
  /-- No instruction is registered under the byte. -/
  | unrecognizedInstruction (code : UInt8)
deriving DecidableEq, Repr

/-- The wording of an unsupported request. -/
def Unsupported.description : Unsupported → String
  | .effectiveAddress => "effective address resolution"
  | .immediateOperand => "decoding an immediate operand"
  | .writtenWidth => "encoding without an explicit width"

/-- The wording of a misuse. -/
def Misuse.description : Misuse → String
  | .memorySize size least greatest =>
    "container size 0x" ++ Hexadecimal.plain size ++ " must be within 0x" ++
      Hexadecimal.plain least ++ "..=0x" ++ Hexadecimal.plain greatest
  | .sentinelRegistered code =>
    "byte $" ++ Hexadecimal.padded 2 code.toNat ++ " cannot be registered as the invalid sentinel"
  | .byteTaken code earlier later =>
    "byte $" ++ Hexadecimal.padded 2 code.toNat ++ " registered for both " ++ earlier.mnemonic ++
      " and " ++ later.mnemonic
  | .notRegistered opcode => "no instruction registered for " ++ opcode.mnemonic
  | .noEncoding opcode mode => opcode.mnemonic ++ " has no " ++ mode.name ++ " encoding"
  | .operandMismatch width opcode mode =>
    width.name ++ " operand does not fit " ++ opcode.mnemonic ++ " " ++ mode.name
  | .hooksExhausted slots =>
    "all " ++ toString slots ++ " instrumentation hook slots are in use"
  | .alreadyRunning => "interpreter is already running"
  | .workerPanicked => "interpreter thread panicked"
  | .noWorker why => "failed to spawn interpreter thread: " ++ why

/-- The wording of a fault. -/
def Fault.message : Fault → String
  | .outOfRange position length =>
    "position 0x" ++ Hexadecimal.padded 6 position ++ " is outside of a view of 0x" ++
      Hexadecimal.plain length ++ " bytes"
  | .accessViolation address =>
    "access violation at 0x" ++ Hexadecimal.padded 6 address.toNat ++
      " (ROM space is not reachable through a banked view)"
  | .notSupported mode what =>
    what.description ++ " is not supported for addressing mode " ++ mode.name
  | .invalidOperation why => "invalid operation: " ++ why.description
  | .unrecognizedInstruction code =>
    "unrecognized instruction 0x" ++ Hexadecimal.padded 2 code.toNat

end W65C816
