import W65C816.Execution.Arithmetic
import W65C816.Execution.Core
import W65C816.Instruction.Basic

/-!
# Effects

Ninety-two operations do a dozen kinds of things. An effect is one of these kinds, with what is
particular to the operation as functions on the registers, and `Effect.perform` carries it out. The
order of the accesses and of the changes to the registers is decided there, once for each kind, so
what a failure leaves behind is a matter of the kind alone.
-/

set_option autoImplicit false

namespace W65C816

open Addressing

/-- What an operation does, given its mode and operands. -/
inductive Effect where
  | registers (change : Registers → Registers)
  /-- Changes the registers by the low byte of the operand as it is encoded. -/
  | operand (change : Registers → UInt8 → Registers)
  | read (width : Registers → Width) (change : Registers → UInt16 → Registers)
  | write (width : Registers → Width) (value : Registers → UInt16)
  /-- Replaces the accumulator or a memory operand. -/
  | replace (result : Registers → UInt16 → UInt16 × Registers)
  /-- Changes the registers by the effective address, if a condition holds. -/
  | jump (condition : Registers → Bool) (go : Registers → UInt32 → Registers)
  /-- Pushes a value that the registers and the operand determine. -/
  | push (width : Registers → Width) (value : Registers → UInt16 → UInt16)
  /-- Pushes the word at an address in the direct page. -/
  | pushIndirect
  | pull (width : Registers → Width) (change : Registers → UInt16 → Registers)
  /-- Pushes the address of its own last byte and jumps within the bank. -/
  | call
  /-- Pushes the bank and the address of its own last byte and jumps to the operand. -/
  | callLong
  | returnNear
  | returnLong
  /-- Restores the status and goes on where an interrupt came. -/
  | returnFromInterrupt
  /-- Saves where it is and the status, and jumps through a vector. -/
  | interrupt (breakFlag : Bool) (emulationVector nativeVector : UInt16)
  /-- Copies one byte of a block and moves on by a step. -/
  | move (step : UInt16 → UInt16)

namespace Effect

/-- Reads the operand of a mode at a width. -/
def readOperand (width : Width) (mode : Mode) (operand : UInt32) : Exec UInt16 := do
  match ← Exec.ask (target mode operand) with
  | .value value => pure (width.narrow (Address.offset value))
  | .address address => Exec.ask fun _ bus => bus.readAt width address

def replaceAccumulator (result : Registers → UInt16 → UInt16 × Registers) (r : Registers) :
    Registers :=
  let (value, r) := result r r.accumulator
  r.setAccumulator value

/-- Replaces a memory operand. The flags are changed before the result is written. -/
def replaceMemory (result : Registers → UInt16 → UInt16 × Registers) (mode : Mode)
    (operand : UInt32) : Exec Unit := do
  let address ← Exec.ask (effectiveAddress mode operand)
  let r ← Exec.registers
  let old ← Exec.ask fun _ bus => bus.readAt r.memoryWidth address
  let (new, changed) := result r old
  Exec.alter fun _ => changed
  Exec.onBus (Bus.writeAt r.memoryWidth address new)

/-- Saves where the processor is and the status, and jumps through a vector. -/
def performInterrupt (breakFlag : Bool) (emulationVector nativeVector : UInt16) :
    Exec Unit := do
  let r ← Exec.registers
  Exec.onlyIf (!r.emulation) (Exec.push8 r.pb)
  Exec.push16 r.pc
  Exec.onlyIf r.emulation (Exec.alter fun r => { r with breakFlag })
  let r ← Exec.registers
  Exec.push8 r.statusByte
  Exec.alter fun r =>
    { r with pb := 0, status := { r.status with interruptDisable := true, decimal := false } }
  let vector := if r.emulation then emulationVector else nativeVector
  let pc ← Exec.ask fun _ bus => bus.read16 vector.toUInt32
  Exec.alter fun r => { r with pc }

/-- Restores the status and goes on where an interrupt came. The restored status does not change
the mode, and native mode also restores the bank. -/
def performReturnFromInterrupt : Exec Unit := do
  let status ← Exec.pull8
  Exec.alter fun r => r.setStatusByte status
  let pc ← Exec.pull16
  Exec.alter fun r => { r with pc }
  let r ← Exec.registers
  Exec.onlyIf (!r.emulation) do
    let pb ← Exec.pull8
    Exec.alter fun r => { r with pb }

/-- The registers after a byte of a block was copied. Until the count runs out, the program counter
goes back to the instruction. -/
def afterMove (step : UInt16 → UInt16) (destination : UInt8) (r : Registers) : Registers :=
  let count := r.c - 1
  let r := (({ r with db := destination : Registers }.setX (step r.x)).setY (step r.y)).setC count
  if count = 0xFFFF then r else { r with pc := r.pc - 3 }

/-- Copies one byte of a block from one bank to another. -/
def performMove (step : UInt16 → UInt16) (source destination : UInt8) : Exec Unit := do
  let r ← Exec.registers
  let byte ← Exec.ask fun r bus => bus.read8 (Address.ofBank source r.xIndex)
  Exec.onBus (Bus.write8 (Address.ofBank destination r.yIndex) byte)
  Exec.alter (afterMove step destination)

/-- Carries out an effect on an operand in a mode. -/
def perform (effect : Effect) (mode : Mode) (operands : Operands) : Exec Unit := do
  let operand := operands.first
  match effect with
  | .registers change => Exec.alter change
  | .operand change => Exec.alter fun r => change r (Address.low operand)
  | .read width change =>
    let r ← Exec.registers
    let value ← readOperand (width r) mode operand
    Exec.alter fun r => change r value
  | .write width value =>
    let address ← Exec.ask (effectiveAddress mode operand)
    let r ← Exec.registers
    Exec.onBus (Bus.writeAt (width r) address (value r))
  | .replace result =>
    if mode = .accumulator then Exec.alter (replaceAccumulator result)
    else replaceMemory result mode operand
  | .jump condition go =>
    let r ← Exec.registers
    Exec.onlyIf (condition r) do
      let address ← Exec.ask (effectiveAddress mode operand)
      Exec.alter fun r => go r address
  | .push width value =>
    let r ← Exec.registers
    Exec.push (width r) (value r (Address.offset operand))
  | .pushIndirect =>
    let value ← Exec.ask fun r bus => bus.read16 (direct r operand).toUInt32
    Exec.push16 value
  | .pull width change =>
    let r ← Exec.registers
    let value ← Exec.pull (width r)
    Exec.alter fun r => change r value
  | .call =>
    let address ← Exec.ask (effectiveAddress mode operand)
    let r ← Exec.registers
    Exec.push16 (r.pc - 1)
    Exec.alter fun r => { r with pc := Address.offset address }
  | .callLong =>
    let r ← Exec.registers
    Exec.push8 r.pb
    Exec.push16 (r.pc - 1)
    Exec.alter fun r => r.jumpTo operand
  | .returnNear =>
    let pc ← Exec.pull16
    Exec.alter fun r => { r with pc := pc + 1 }
  | .returnLong =>
    let pc ← Exec.pull16
    Exec.alter fun r => { r with pc := pc + 1 }
    let pb ← Exec.pull8
    Exec.alter fun r => { r with pb }
  | .returnFromInterrupt => performReturnFromInterrupt
  | .interrupt breakFlag emulationVector nativeVector =>
    performInterrupt breakFlag emulationVector nativeVector
  | .move step => performMove step (Address.low operand) (Address.low operands.second)

end Effect

end W65C816
