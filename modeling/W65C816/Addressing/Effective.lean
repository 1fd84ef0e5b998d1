import W65C816.Memory.Bus
import W65C816.Registers.Basic

/-!
# Effective addresses

From a mode, an operand and the registers to the address that the instruction works on. Addresses
in the direct page and relative to the stack are words, so they stay in bank zero and wrap at its
end, and so do the pointers that are fetched there. Data addresses are in the data bank, which
emulation mode holds at zero, and indexing carries them into the next bank. Branches and jumps
stay in the program bank.
-/

set_option autoImplicit false

namespace W65C816.Addressing

/-- The address in the direct page, which emulation mode holds at zero. -/
def direct (r : Registers) (operand : UInt32) : UInt16 :=
  if r.emulation then Address.offset operand else Address.offset operand + r.dp

/-- The address relative to the stack pointer. -/
def stackRelative (r : Registers) (operand : UInt32) : UInt16 :=
  r.sp + Address.offset operand

/-- The address of an offset in the data bank. -/
def absolute (r : Registers) (offset : UInt16) : UInt32 :=
  Address.ofBank (if r.emulation then 0 else r.db) offset

/-- The address behind a base by an index. -/
def indexed (base : UInt32) (index : UInt16) : UInt32 :=
  Address.wrap (base + index.toUInt32)

/-- The address that an instruction in the given mode works on. -/
def effectiveAddress (mode : Mode) (operand : UInt32) (r : Registers) (bus : Bus) :
    Except Fault UInt32 :=
  let offset := Address.offset operand
  match mode with
  | .direct => .ok (direct r operand).toUInt32
  | .directIndexedX => .ok (direct r operand + r.xIndex).toUInt32
  | .directIndexedY => .ok (direct r operand + r.yIndex).toUInt32
  | .directIndirect => do
    let pointer ← bus.read16 (direct r operand).toUInt32
    pure (absolute r pointer)
  | .directIndexedIndirect => do
    let pointer ← bus.read16 (direct r operand + r.xIndex).toUInt32
    pure (absolute r pointer)
  | .directIndirectIndexed => do
    let pointer ← bus.read16 (direct r operand).toUInt32
    pure (indexed (absolute r pointer) r.yIndex)
  | .directIndirectLong => bus.read24 (direct r operand).toUInt32
  | .directIndirectIndexedLong => do
    let pointer ← bus.read24 (direct r operand).toUInt32
    pure (indexed pointer r.yIndex)
  | .absolute => .ok (absolute r offset)
  | .absoluteIndexedX => .ok (indexed (absolute r offset) r.xIndex)
  | .absoluteIndexedY => .ok (indexed (absolute r offset) r.yIndex)
  | .absoluteLong => .ok (Address.wrap operand)
  | .absoluteLongIndexedX => .ok (indexed operand r.xIndex)
  | .absoluteIndirect => do
    let target ← bus.read16 offset.toUInt32
    pure (Address.ofBank r.pb target)
  | .absoluteIndexedIndirect => do
    let target ← bus.read16 (Address.ofBank r.pb (offset + r.xIndex))
    pure (Address.ofBank r.pb target)
  | .absoluteIndirectLong => bus.read24 offset.toUInt32
  | .stackRelative => .ok (stackRelative r operand).toUInt32
  | .stackRelativeIndirectIndexed => do
    let pointer ← bus.read16 (stackRelative r operand).toUInt32
    pure (indexed (absolute r pointer) r.yIndex)
  | .programCounterRelative =>
    .ok (Address.ofBank r.pb (r.pc + Word.signExtend (Address.low operand)))
  | .programCounterRelativeLong => .ok (Address.ofBank r.pb (r.pc + offset))
  | .implied | .accumulator | .immediate | .blockMove =>
    .error (.notSupported mode .effectiveAddress)

/-- What an operand stands for. -/
inductive Target where
  | address (address : UInt32)
  /-- The operand is the constant itself. -/
  | value (value : UInt32)
deriving DecidableEq, Repr

/-- What an operand stands for in the given mode. -/
def target (mode : Mode) (operand : UInt32) (r : Registers) (bus : Bus) : Except Fault Target :=
  match mode with
  | .immediate => .ok (.value operand)
  | _ => do
    let address ← effectiveAddress mode operand r bus
    pure (.address address)

end W65C816.Addressing
