import W65C816.Action
import W65C816.Addressing.Effective
import W65C816.Registers.Mode

/-!
# The core and its stack

The core of the machine is the register file and the bus. An instruction is an action on the core:
when it fails halfway, the registers that it has changed and the bytes that it has written stay so.

The stack grows downward. A push writes first and moves the stack pointer after that; a pull moves
the stack pointer first and reads after that. In emulation mode the pointer stays in its page. A
word is pushed high byte first, so that it lies on the stack with its low byte first.
-/

set_option autoImplicit false

namespace W65C816

/-- The byte or the word at a position. -/
def Bus.readAt (bus : Bus) (width : Width) (position : UInt32) : Except Fault UInt16 :=
  match width with
  | .byte => do
    let byte ← bus.read8 position
    pure byte.toUInt16
  | .word => bus.read16 position

/-- Writes the part of a value that counts at a width. -/
def Bus.writeAt (width : Width) (position : UInt32) (value : UInt16) : EStateM Fault Bus Unit :=
  match width with
  | .byte => Bus.write8 position (Word.low value)
  | .word => Bus.write16 position value

/-- The registers and the bus that they work on. -/
structure Core where
  registers : Registers
  bus : Bus

/-- What an instruction does to the core. -/
abbrev Exec (α : Type) := EStateM Fault Core α

namespace Exec

def registers : Exec Registers := fun core =>
  .ok core.registers core

def alter (change : Registers → Registers) : Exec Unit
  | ⟨registers, bus⟩ => .ok () ⟨change registers, bus⟩

/-- Asks a question about the registers and the bus. -/
def ask {α : Type} (question : Registers → Bus → Except Fault α) : Exec α :=
  Action.look fun core => question core.registers core.bus

/-- An action on the bus. -/
def onBus {α : Type} (action : EStateM Fault Bus α) : Exec α
  | ⟨registers, bus⟩ => Action.place (Core.mk registers) (action bus)

/-- Carries out an action if a condition holds. -/
def onlyIf (condition : Bool) (action : Exec Unit) : Exec Unit :=
  if condition then action else pure ()

def push8 (value : UInt8) : Exec Unit := do
  let r ← registers
  onBus (Bus.write8 (r.wrapStack r.sp).toUInt32 value)
  alter fun r => { r with sp := r.wrapStack (r.sp - 1) }

def push16 (value : UInt16) : Exec Unit := do
  push8 (Word.high value)
  push8 (Word.low value)

def pull8 : Exec UInt8 := do
  alter fun r => { r with sp := r.wrapStack (r.sp + 1) }
  ask fun r bus => bus.read8 r.sp.toUInt32

def pull16 : Exec UInt16 := do
  let low ← pull8
  let high ← pull8
  pure (Word.join high low)

/-- Pushes the part of a value that counts at a width. -/
def push (width : Width) (value : UInt16) : Exec Unit :=
  match width with
  | .byte => push8 (Word.low value)
  | .word => push16 value

/-- Pulls a value of a width. -/
def pull (width : Width) : Exec UInt16 :=
  match width with
  | .byte => do
    let byte ← pull8
    pure byte.toUInt16
  | .word => pull16

end Exec

end W65C816
