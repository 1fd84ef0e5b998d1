import W65C816.Registers.Basic

/-!
# Modes and the status byte

The two modes of the processor and what crosses between them. Entering emulation mode cuts the
index registers to one byte, moves the high byte of the accumulator to `b` and returns the stack
to its page; entering native mode puts the accumulator together again. Both set the width flags
and leave the old mode in the carry.

The status byte is what the stack holds of the flags. In emulation mode the memory width reads as
set and the break flag takes the place of the index width. Whatever makes the index registers one
byte wide also clears their high bytes.
-/

set_option autoImplicit false

namespace W65C816.Registers

/-- The flags with both width flags set. -/
def withNarrowWidths (flags : Flags) : Flags :=
  { flags with memory8 := true, index8 := true }

/-- Enters native mode. The carry takes the old mode. -/
def enterNative (r : Registers) : Registers :=
  { r with
    a := if r.emulation then Word.join r.b (Word.low r.a) else r.a
    emulation := false
    status := withNarrowWidths { r.status with carry := r.emulation } }

/-- Enters emulation mode. The carry takes the old mode. -/
def enterEmulation (r : Registers) : Registers :=
  { r with
    a := if r.emulation then r.a else Word.dropHigh r.a
    b := if r.emulation then r.b else Word.high r.a
    x := Word.dropHigh r.x
    y := Word.dropHigh r.y
    sp := stackPage
    emulation := true
    status := withNarrowWidths { r.status with carry := r.emulation } }

/-- Exchanges the carry and the mode. A mode is entered only when it changes. -/
def exchangeCarryEmulation (r : Registers) : Registers :=
  match r.emulation, r.status.carry with
  | true, false => r.enterNative
  | false, true => r.enterEmulation
  | emulation, _ => r.setCarry emulation

/-- Clears the parts of X and Y that do not count at the width in force. -/
def applyIndexWidth (r : Registers) : Registers :=
  { r with x := r.xIndex, y := r.yIndex }

/-- The status as the stack holds it. -/
def statusByte (r : Registers) : UInt8 :=
  if r.emulation then { r.status with memory8 := true, index8 := r.breakFlag : Flags }.toByte
  else r.status.toByte

/-- Restores the status from a byte of the stack. -/
def setStatusByte (r : Registers) (value : UInt8) : Registers :=
  let flags := Flags.ofByte value
  let r : Registers :=
    if r.emulation then { r with breakFlag := flags.index8, status := withNarrowWidths flags }
    else { r with status := flags }
  r.applyIndexWidth

/-- Clears the flags that a byte selects. The widths cannot be cleared in emulation mode. -/
def clearStatusBits (r : Registers) (mask : UInt8) : Registers :=
  let selected := Flags.ofByte mask
  let cleared :=
    if r.emulation then { selected with memory8 := false, index8 := false } else selected
  { r with status := r.status.clear cleared }

/-- Sets the flags that a byte selects. -/
def setStatusBits (r : Registers) (mask : UInt8) : Registers :=
  { r with status := r.status.set (Flags.ofByte mask) : Registers }.applyIndexWidth

/-- The stack pointer as the mode in force takes it: in emulation mode it stays in its page. -/
def wrapStack (r : Registers) (sp : UInt16) : UInt16 :=
  if r.emulation then Word.withLow stackPage (Word.low sp) else sp

end W65C816.Registers
