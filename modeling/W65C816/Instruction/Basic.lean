import W65C816.Memory.Bus
import W65C816.Width

/-!
# Instructions

An instruction is an operation in an addressing mode, together with the leading byte that it is
encoded by. The mode fixes the number of operand bytes, except for an immediate constant, whose
width is a matter of the operation and of the widths in force.

Operands are numbers of at most three bytes, low byte first. A block move has two, the bank it
reads from and the bank it writes to; it is encoded with the second one first.
-/

set_option autoImplicit false

namespace W65C816

open Addressing

/-- The number of bytes of an immediate constant, for the operations that take one. -/
def Opcode.immediateLength? (opcode : Opcode) (widths : Widths) : Option Nat :=
  match opcode with
  | .adc | .and | .bit | .cmp | .eor | .lda | .ora | .sbc => some widths.memory.bytes
  | .cpx | .cpy | .ldx | .ldy => some widths.index.bytes
  | .brk | .cop | .rep | .sep | .wdm => some 1
  | _ => none

/-- An immediate constant has two bytes at most. -/
theorem Opcode.immediateLength?_le {opcode : Opcode} {widths : Widths} {length : Nat}
    (h : opcode.immediateLength? widths = some length) : length ≤ 2 := by
  have := widths.memory.bytes_le
  have := widths.index.bytes_le
  unfold immediateLength? at h
  split at h <;> grind

/-- An operation in an addressing mode, under the leading byte that it is encoded by. -/
structure Instruction where
  code : UInt8
  opcode : Opcode
  mode : Mode
deriving DecidableEq, Repr

/-- The operands of an instruction and the number of bytes that encode them. -/
structure Operands where
  first : UInt32 := 0
  second : UInt32 := 0
  length : Nat := 0
deriving DecidableEq, Repr

namespace Instruction

/-- What stands for a byte without an instruction. -/
def invalid (code : UInt8) : Instruction where
  code
  opcode := .invalid
  mode := .implied

/-- Whether this is an instruction and not a stand-in. -/
def isValid (instruction : Instruction) : Bool :=
  instruction.opcode != .invalid

/-- Whether operand bytes follow the leading byte. -/
def hasOperands (instruction : Instruction) : Bool :=
  instruction.isValid && instruction.mode.hasOperands

/-- The number of operand bytes behind the leading byte. -/
def operandLength (instruction : Instruction) (widths : Widths) : Except Fault Nat :=
  if instruction.isValid then
    match instruction.mode.operandLength? with
    | some length => .ok length
    | none =>
      match instruction.opcode.immediateLength? widths with
      | some length => .ok length
      | none => .error (.notSupported instruction.mode .immediateOperand)
  else
    .ok 0

/-- Reads the operands of the instruction from a position on. -/
def decode (instruction : Instruction) (bus : Bus) (position : UInt32) (widths : Widths) :
    Except Fault Operands := do
  match instruction.mode, ← instruction.operandLength widths with
  | _, 0 => pure {}
  | .blockMove, length =>
    bus.check position 2
    let destination ← bus.read8 position
    let source ← bus.read8 (position + 1)
    pure { first := source.toUInt32, second := destination.toUInt32, length }
  | _, 1 =>
    let operand ← bus.read8 position
    pure { first := operand.toUInt32, length := 1 }
  | _, 2 =>
    let operand ← bus.read16 position
    pure { first := operand.toUInt32, length := 2 }
  | _, length =>
    let operand ← bus.read24 position
    pure { first := operand, length }

/-- No instruction has more than three operand bytes. -/
theorem operandLength_le {instruction : Instruction} {widths : Widths} {length : Nat}
    (h : instruction.operandLength widths = .ok length) : length ≤ 3 := by
  unfold operandLength at h
  split at h
  · split at h
    · next found =>
      cases h
      exact Mode.operandLength?_le found
    · split at h
      · next found =>
        cases h
        exact Nat.le_succ_of_le (Opcode.immediateLength?_le found)
      · cases h
  · cases h
    decide

/-- What was read has the length that was to be read. -/
theorem operandLength_of_decode {instruction : Instruction} {bus : Bus} {position : UInt32}
    {widths : Widths} {operands : Operands}
    (h : instruction.decode bus position widths = .ok operands) :
    instruction.operandLength widths = .ok operands.length := by
  unfold decode at h
  cases found : instruction.operandLength widths with
  | error fault => simp [found, bind, Except.bind] at h
  | ok length =>
    simp only [found, bind, Except.bind, pure, Except.pure] at h
    repeat' split at h
    all_goals first
      | cases h
        rfl
      | contradiction

end Instruction

end W65C816
