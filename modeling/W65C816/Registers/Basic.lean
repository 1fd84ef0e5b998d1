import W65C816.Registers.Flags
import W65C816.Width

/-!
# Registers

The register file of the processor. In emulation mode `a` holds only the low byte of the
accumulator and the high byte lives in the hidden register `b`; in native mode `a` is the whole
accumulator and `b` lies idle. `Registers.c` is the sixteen bits of the accumulator in either mode.

The width in force decides how much of a register counts. Emulation mode makes every width one
byte, whatever the flags say.
-/

set_option autoImplicit false

namespace W65C816

/-- The least address of the stack page of emulation mode. -/
def stackPage : UInt16 := 0x0100

/-- The registers and flags of a processor. The default is the state after power-on. -/
structure Registers where
  a : UInt16 := 0
  b : UInt8 := 0
  x : UInt16 := 0
  y : UInt16 := 0
  sp : UInt16 := stackPage
  dp : UInt16 := 0
  db : UInt8 := 0
  pb : UInt8 := 0
  pc : UInt16 := 0
  status : Flags := { memory8 := true, index8 := true }
  emulation : Bool := true
  /-- Stands in for the index width in the status byte of emulation mode. -/
  breakFlag : Bool := false
  waiting : Bool := false
  stopped : Bool := false
  /-- The number of instructions that were carried out. It wraps around. -/
  instructions : UInt64 := 0
deriving DecidableEq, Repr

namespace Registers

/-- The width of the accumulator and of memory operands. -/
def memoryWidth (r : Registers) : Width :=
  .ofFlag (r.emulation || r.status.memory8)

def indexWidth (r : Registers) : Width :=
  .ofFlag (r.emulation || r.status.index8)

/-- The widths under which the next instruction is read. -/
def widths (r : Registers) : Widths where
  memory := r.memoryWidth
  index := r.indexWidth

/-- The address of the next instruction. -/
def fullPc (r : Registers) : UInt32 :=
  Address.ofBank r.pb r.pc

/-- The sixteen bits of the accumulator. -/
def c (r : Registers) : UInt16 :=
  if r.emulation then Word.join r.b (Word.low r.a) else r.a

/-- Replaces the sixteen bits of the accumulator. -/
def setC (r : Registers) (value : UInt16) : Registers :=
  if r.emulation then { r with b := Word.high value, a := Word.dropHigh value }
  else { r with a := value }

/-- The accumulator at the width in force. -/
def accumulator (r : Registers) : UInt16 :=
  r.memoryWidth.narrow r.a

/-- Replaces the accumulator at the width in force and keeps the rest of it. -/
def setAccumulator (r : Registers) (value : UInt16) : Registers :=
  { r with a := r.memoryWidth.replace r.a value }

/-- The part of a value that an index register of the width in force can hold. -/
def index (r : Registers) (value : UInt16) : UInt16 :=
  r.indexWidth.narrow value

/-- The part of X that counts at the width in force. -/
def xIndex (r : Registers) : UInt16 :=
  r.index r.x

/-- The part of Y that counts at the width in force. -/
def yIndex (r : Registers) : UInt16 :=
  r.index r.y

/-- Replaces X. -/
def setX (r : Registers) (value : UInt16) : Registers :=
  { r with x := r.index value }

/-- Replaces Y. -/
def setY (r : Registers) (value : UInt16) : Registers :=
  { r with y := r.index value }

/-- Sets N and Z from a value of the given width. -/
def setNZ (r : Registers) (width : Width) (value : UInt16) : Registers :=
  { r with status := { r.status with
    negative := width.sign value
    zero := width.narrow value == 0 } }

/-- Sets or clears the carry. -/
def setCarry (r : Registers) (on : Bool) : Registers :=
  { r with status := { r.status with carry := on } }

/-- Sets or clears the selected flags. -/
def assignFlags (r : Registers) (selected : Flags) (on : Bool) : Registers :=
  { r with status := r.status.assign selected on }

/-- Moves the program counter on, within its bank. -/
def advance (r : Registers) (count : Nat) : Registers :=
  { r with pc := r.pc + UInt16.ofNat count }

/-- Sets the program bank and the program counter. -/
def jumpTo (r : Registers) (address : UInt32) : Registers :=
  { r with pb := Address.bank address, pc := Address.offset address }

end Registers

end W65C816
