/-!
# Status flags

The processor status is eight flags, and a byte holds one flag in each bit, the carry in the lowest.
`Flags.toByte` and `Flags.ofByte` are inverse to each other. A byte that selects flags is read as
flags too, so that clearing and setting selected flags works on one type.
-/

set_option autoImplicit false

namespace W65C816

/-- The eight flags of the processor status. -/
structure Flags where
  carry : Bool := false
  zero : Bool := false
  interruptDisable : Bool := false
  decimal : Bool := false
  /-- In native mode: the index registers are one byte wide. -/
  index8 : Bool := false
  /-- In native mode: the accumulator and memory operands are one byte wide. -/
  memory8 : Bool := false
  overflow : Bool := false
  negative : Bool := false
deriving DecidableEq, Repr

namespace Flags

/-- Whether the bit with weight `2 ^ i` is set. -/
def bit (byte : UInt8) (i : Nat) : Bool :=
  byte.toNat.testBit i

/-- The flags that a byte holds. -/
def ofByte (byte : UInt8) : Flags where
  carry := bit byte 0
  zero := bit byte 1
  interruptDisable := bit byte 2
  decimal := bit byte 3
  index8 := bit byte 4
  memory8 := bit byte 5
  overflow := bit byte 6
  negative := bit byte 7

/-- The sum of the weights of the flags that are set. -/
def weight (flags : Flags) : Nat :=
  flags.carry.toNat + 2 * flags.zero.toNat + 4 * flags.interruptDisable.toNat +
    8 * flags.decimal.toNat + 16 * flags.index8.toNat + 32 * flags.memory8.toNat +
    64 * flags.overflow.toNat + 128 * flags.negative.toNat

/-- The byte that holds the flags. -/
def toByte (flags : Flags) : UInt8 :=
  UInt8.ofNat flags.weight

/-- The flags with the selected ones cleared. -/
def clear (flags selected : Flags) : Flags where
  carry := flags.carry && !selected.carry
  zero := flags.zero && !selected.zero
  interruptDisable := flags.interruptDisable && !selected.interruptDisable
  decimal := flags.decimal && !selected.decimal
  index8 := flags.index8 && !selected.index8
  memory8 := flags.memory8 && !selected.memory8
  overflow := flags.overflow && !selected.overflow
  negative := flags.negative && !selected.negative

/-- The flags with the selected ones set. -/
def set (flags selected : Flags) : Flags where
  carry := flags.carry || selected.carry
  zero := flags.zero || selected.zero
  interruptDisable := flags.interruptDisable || selected.interruptDisable
  decimal := flags.decimal || selected.decimal
  index8 := flags.index8 || selected.index8
  memory8 := flags.memory8 || selected.memory8
  overflow := flags.overflow || selected.overflow
  negative := flags.negative || selected.negative

/-- The flags with the selected ones set or cleared. -/
def assign (flags selected : Flags) (on : Bool) : Flags :=
  if on then flags.set selected else flags.clear selected

/-- Whether all of the selected flags are set. -/
def hasAll (flags selected : Flags) : Bool :=
  flags.set selected == flags

/-- The weights of all eight flags fit in a byte. -/
theorem weight_lt (flags : Flags) : flags.weight < 256 := by
  have bound := Bool.toNat_lt
  have := bound flags.carry
  have := bound flags.zero
  have := bound flags.interruptDisable
  have := bound flags.decimal
  have := bound flags.index8
  have := bound flags.memory8
  have := bound flags.overflow
  have := bound flags.negative
  unfold weight
  omega

/-- The byte of the flags counts the weights of those that are set. -/
theorem toNat_toByte (flags : Flags) : flags.toByte.toNat = flags.weight := by
  have := flags.weight_lt
  simp [toByte]
  omega

/-- Reading a byte as flags loses nothing. -/
@[simp] theorem toByte_ofByte (byte : UInt8) : (ofByte byte).toByte = byte := by
  apply UInt8.toNat.inj
  have := byte.toNat_lt
  simp only [toNat_toByte, weight, ofByte, bit, Nat.toNat_testBit, Nat.pow_zero, Nat.reducePow]
  omega

/-- Writing flags as a byte loses nothing. -/
@[simp] theorem ofByte_toByte (flags : Flags) : ofByte flags.toByte = flags := by
  obtain ⟨carry, zero, interruptDisable, decimal, index8, memory8, overflow, negative⟩ := flags
  simp only [ofByte, bit, toNat_toByte, weight]
  cases carry <;> cases zero <;> cases interruptDisable <;> cases decimal <;> cases index8 <;>
    cases memory8 <;> cases overflow <;> cases negative <;> rfl

end Flags

end W65C816
