import W65C816.Action
import W65C816.Memory.Banked

/-!
# The bus

The bus is what the processor sees of a memory: a flat view of it or a banked one. It owns the
memory, so a write yields a new bus.

Every access of several bytes can be carried out byte by byte, after the whole range was checked,
and this is what `Bytewise` does on any bus; positions run on modulo `2 ^ 32`. A flat view has
accesses of its own, which find the range once. The operations of `Bus` take these on a flat view
and the bytewise ones on a banked view.
-/

set_option autoImplicit false

namespace W65C816

/-- What the processor sees of a memory. -/
inductive Bus where
  /-- Positions run through the view. -/
  | flat (view : View)
  /-- Positions are addresses in banks that share the view. -/
  | banked (wram : View)

namespace Bus

/-- The view behind the bus. -/
def view : Bus → View
  | .flat view => view
  | .banked wram => wram

/-- The memory behind the bus. -/
def memory (bus : Bus) : Memory :=
  bus.view.memory

/-- The number of bytes in the view behind the bus. -/
def length (bus : Bus) : Nat :=
  bus.view.length

/-- Whether the view behind the bus has no bytes. -/
def isEmpty (bus : Bus) : Bool :=
  bus.length == 0

/-- Fails unless each of `count` positions from `position` on is reachable. -/
def check : Bus → UInt32 → Nat → Except Fault Unit
  | .flat view => view.check
  | .banked wram => Banked.check wram

/-- The byte at a position. -/
def read8 : Bus → UInt32 → Except Fault UInt8
  | .flat view => view.read8
  | .banked wram => Banked.read8 wram

/-- Writes a byte. -/
def write8 (position : UInt32) (value : UInt8) : EStateM Fault Bus Unit
  | .flat view => Action.place .flat (View.write8 position value view)
  | .banked wram => Action.place .banked (Banked.write8 position value wram)

end Bus

namespace Bytewise

/-- The positions of `count` bytes from `position` on. -/
def positions (position : UInt32) (count : Nat) : List UInt32 :=
  (List.range count).map fun i => position + UInt32.ofNat i

/-- The word at a position. -/
def read16 (bus : Bus) (position : UInt32) : Except Fault UInt16 := do
  bus.check position 2
  let low ← bus.read8 position
  let high ← bus.read8 (position + 1)
  pure (Word.join high low)

/-- The number of three bytes at a position. -/
def read24 (bus : Bus) (position : UInt32) : Except Fault UInt32 := do
  bus.check position 3
  let low ← bus.read8 position
  let middle ← bus.read8 (position + 1)
  let high ← bus.read8 (position + 2)
  pure (Address.ofBytes high middle low)

/-- The `count` bytes from a position on. -/
def readBlock (bus : Bus) (position : UInt32) (count : Nat) : Except Fault (List UInt8) := do
  bus.check position count
  (positions position count).mapM bus.read8

/-- Writes a row of bytes from a position on. -/
def write (position : UInt32) (values : List UInt8) : EStateM Fault Bus Unit := do
  Action.look fun bus => bus.check position values.length
  ((positions position values.length).zip values).forM fun (position, value) =>
    Bus.write8 position value

/-- Writes a word. -/
def write16 (position : UInt32) (value : UInt16) : EStateM Fault Bus Unit :=
  write position [Word.low value, Word.high value]

/-- Writes the low three bytes of a number. -/
def write24 (position : UInt32) (value : UInt32) : EStateM Fault Bus Unit :=
  write position [Address.low value, Address.middle value, Address.bank value]

end Bytewise

namespace Bus

/-- The word at a position. -/
def read16 (bus : Bus) (position : UInt32) : Except Fault UInt16 :=
  match bus with
  | .flat view => view.read16 position
  | .banked _ => Bytewise.read16 bus position

/-- The number of three bytes at a position. -/
def read24 (bus : Bus) (position : UInt32) : Except Fault UInt32 :=
  match bus with
  | .flat view => view.read24 position
  | .banked _ => Bytewise.read24 bus position

/-- The `count` bytes from a position on. -/
def readBlock (bus : Bus) (position : UInt32) (count : Nat) : Except Fault (List UInt8) :=
  match bus with
  | .flat view => view.readBlock position count
  | .banked _ => Bytewise.readBlock bus position count

/-- Writes a word. -/
def write16 (position : UInt32) (value : UInt16) : EStateM Fault Bus Unit
  | .flat view => Action.place .flat (View.write16 position value view)
  | .banked wram => Bytewise.write16 position value (.banked wram)

/-- Writes the low three bytes of a number. -/
def write24 (position : UInt32) (value : UInt32) : EStateM Fault Bus Unit
  | .flat view => Action.place .flat (View.write24 position value view)
  | .banked wram => Bytewise.write24 position value (.banked wram)

/-- Writes a row of bytes from a position on. -/
def writeBlock (position : UInt32) (values : List UInt8) : EStateM Fault Bus Unit
  | .flat view => Action.place .flat (View.writeBlock position values view)
  | .banked wram => Bytewise.write position values (.banked wram)

/-- Copies an image into the memory behind the bus. -/
def load (offset : Nat) (image : ByteArray) : EStateM Fault Bus Unit
  | .flat view => Action.place .flat (View.load offset image view)
  | .banked wram => Action.place .banked (View.load offset image wram)

end Bus

end W65C816
