import W65C816.Memory.View

/-!
# Banked views

A banked view lays the banks of the address space over one flat view, the working memory. Banks
`7E` and `7F` are the first and second half of it. The low half of every other bank is the low half
of bank `7E` once more, and the high half of every other bank is out of reach. Only the low 24 bits
of a position count.
-/

set_option autoImplicit false

namespace W65C816.Banked

/-- The bank of the first half of the working memory. -/
def firstBank : UInt8 := 0x7E

/-- The bank of the second half of the working memory. -/
def secondBank : UInt8 := 0x7F

/-- Where the half of a bank begins that only the banks of the working memory reach. -/
def highHalf : UInt16 := 0x8000

/-- The position in the working memory that an address stands for, if it stands for one, whether
or not the working memory extends so far. -/
def position? (address : UInt32) : Option UInt32 :=
  let bank := Address.bank address
  let offset := Address.offset address
  if bank = firstBank ∨ bank = secondBank then some (Address.ofBank (bank - firstBank) offset)
  else if highHalf ≤ offset then none
  else some offset.toUInt32

/-- The position in the working memory that an address stands for. -/
def resolve (wram : View) (address : UInt32) : Except Fault UInt32 :=
  match position? address with
  | none => .error (.accessViolation (Address.wrap address))
  | some position =>
    match wram.check position 1 with
    | .ok _ => .ok position
    | .error fault => .error fault

/-- Fails with the fault of the first of `count` addresses from `address` on that cannot be
resolved. -/
def checkEach (wram : View) (address : UInt32) : Nat → Except Fault Unit
  | 0 => .ok ()
  | count + 1 =>
    match resolve wram address with
    | .ok _ => checkEach wram (address + 1) count
    | .error fault => .error fault

/-- Fails unless each of `count` addresses from `address` on can be resolved. The address itself
has to be one even when no byte is asked for. -/
def check (wram : View) (address : UInt32) (count : Nat) : Except Fault Unit :=
  checkEach wram address (max count 1)

/-- The byte at an address. -/
def read8 (wram : View) (address : UInt32) : Except Fault UInt8 :=
  match resolve wram address with
  | .ok position => wram.read8 position
  | .error fault => .error fault

/-- Writes a byte. -/
def write8 (address : UInt32) (value : UInt8) : EStateM Fault View Unit := fun wram =>
  match resolve wram address with
  | .ok position => View.write8 position value wram
  | .error fault => .error fault wram

end W65C816.Banked
