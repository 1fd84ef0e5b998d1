import W65C816.Registers.Mode

/-!
# Arithmetic and logic

What the arithmetic and logical instructions do to the registers, given the operand at the width in
force. In decimal mode a number is read four bits to a digit. Addition then corrects the binary sum
digit by digit, from the lowest up, and reports a sum beyond the width in the carry and in the
overflow flag alike. Subtraction goes digit by digit with a borrow, while its overflow flag is that
of the binary difference.
-/

set_option autoImplicit false

namespace W65C816

/-- Adds six to each of the lowest `digits` digits that is above nine, from the lowest up, so that a
carry out of a digit reaches the next before it is looked at. -/
def decimalAdjust : Nat → Nat → Nat
  | 0, sum => sum
  | digits + 1, sum =>
    let adjusted := if 9 < sum % 16 then sum + 6 else sum
    adjusted % 16 + 16 * decimalAdjust digits (adjusted / 16)

/-- The difference of two digits and a borrow, and the borrow that it takes. -/
def subtractDigit (a b borrow : Nat) : Nat × Nat :=
  if b + borrow ≤ a then (a - (b + borrow), 0) else ((a + 26 - (b + borrow)) % 16, 1)

/-- The difference of two numbers of so many digits and a borrow, and the borrow that it takes. -/
def subtractDigits : Nat → Nat → Nat → Nat → Nat × Nat
  | 0, _, _, borrow => (0, borrow)
  | digits + 1, a, b, borrow =>
    let lowest := subtractDigit (a % 16) (b % 16) borrow
    let rest := subtractDigits digits (a / 16) (b / 16) lowest.2
    (lowest.1 + 16 * rest.1, rest.2)

namespace Registers

/-- Loads the accumulator and sets N and Z. -/
def loadAccumulator (r : Registers) (value : UInt16) : Registers :=
  (r.setAccumulator value).setNZ r.memoryWidth value

def loadX (r : Registers) (value : UInt16) : Registers :=
  (r.setX value).setNZ r.indexWidth value

def loadY (r : Registers) (value : UInt16) : Registers :=
  (r.setY value).setNZ r.indexWidth value

/-- Adds the operand and the carry to the accumulator. -/
def add (r : Registers) (operand : UInt16) : Registers :=
  let width := r.memoryWidth
  let binary := r.accumulator.toNat + (width.narrow operand).toNat + r.status.carry.toNat
  let sum := if r.status.decimal then decimalAdjust (2 * width.bytes) binary else binary
  let exceeded := decide (width.limit ≤ sum)
  { r with status := { r.status with carry := exceeded, overflow := exceeded } : Registers
    }.loadAccumulator (UInt16.ofNat (sum % width.limit))

/-- Subtracts the operand and the borrow, which is the carry's complement, from the
accumulator. -/
def subtract (r : Registers) (operand : UInt16) : Registers :=
  let width := r.memoryWidth
  let a := r.accumulator
  let b := width.narrow operand
  let borrow := (!r.status.carry).toNat
  let binary := UInt16.ofNat ((a.toNat + width.limit - (b.toNat + borrow)) % width.limit)
  let overflow := width.sign a != width.sign b && width.sign a != width.sign binary
  let decimal := subtractDigits (2 * width.bytes) a.toNat b.toNat borrow
  let carry :=
    if r.status.decimal then decimal.2 == 0 else decide (b.toNat + borrow ≤ a.toNat)
  { r with status := { r.status with carry, overflow } : Registers
    }.loadAccumulator (if r.status.decimal then UInt16.ofNat decimal.1 else binary)

/-- Sets N, Z and C as a subtraction of `value` from `register` would. -/
def compare (r : Registers) (width : Width) (register value : UInt16) : Registers :=
  (r.setCarry (decide (value ≤ register))).setNZ width (register - value)

/-- Sets Z from the bits that the accumulator and the value share. -/
def testZero (r : Registers) (value : UInt16) : Registers :=
  { r with status := { r.status with zero := r.accumulator &&& value == 0 } }

/-- Sets Z as `testZero` does, and N and V from the two highest bits of the value. -/
def testBits (r : Registers) (value : UInt16) : Registers :=
  let width := r.memoryWidth
  let r := r.testZero value
  { r with status := { r.status with
    negative := width.sign value
    overflow := Word.bit value (8 * width.bytes - 2) } }

/-- The result of an instruction that changes its operand in place, at the width in force, and the
registers with N and Z set from it. -/
def result (r : Registers) (value : UInt16) : UInt16 × Registers :=
  let value := r.memoryWidth.narrow value
  (value, r.setNZ r.memoryWidth value)

/-- Shifts left. The highest bit goes to the carry. -/
def shiftLeft (r : Registers) (value : UInt16) : UInt16 × Registers :=
  (r.setCarry (r.memoryWidth.sign value)).result (value + value)

/-- Shifts right. The lowest bit goes to the carry. -/
def shiftRight (r : Registers) (value : UInt16) : UInt16 × Registers :=
  (r.setCarry (Word.bit value 0)).result (r.memoryWidth.narrow value / 2)

/-- Rotates left through the carry. -/
def rotateLeft (r : Registers) (value : UInt16) : UInt16 × Registers :=
  (r.setCarry (r.memoryWidth.sign value)).result
    (value + value + if r.status.carry then 1 else 0)

/-- Rotates right through the carry. -/
def rotateRight (r : Registers) (value : UInt16) : UInt16 × Registers :=
  (r.setCarry (Word.bit value 0)).result
    (r.memoryWidth.narrow value / 2 + if r.status.carry then r.memoryWidth.highest else 0)

def increment (r : Registers) (value : UInt16) : UInt16 × Registers :=
  r.result (value + 1)

def decrement (r : Registers) (value : UInt16) : UInt16 × Registers :=
  r.result (value - 1)

/-- Sets the bits of the accumulator in the value and tells in Z whether it had any of them. -/
def setBits (r : Registers) (value : UInt16) : UInt16 × Registers :=
  (value ||| r.accumulator, r.testZero value)

/-- Clears the bits of the accumulator in the value and tells in Z whether it had any of them. -/
def clearBits (r : Registers) (value : UInt16) : UInt16 × Registers :=
  (value &&& ~~~r.accumulator, r.testZero value)

/-- Exchanges the two bytes of the accumulator and sets N and Z from the new low one. -/
def exchangeBytes (r : Registers) : Registers :=
  let swapped := Word.join (Word.low r.c) (Word.high r.c)
  (r.setC swapped).setNZ .byte swapped

end Registers

end W65C816
