import W65C816.Proofs.Execution.Faults
import W65C816.Proofs.Memory.Banks

/-!
# Addresses in whole numbers

An address is a sum of an operand, a base and an index, taken modulo the size of a bank or of the
address space. `Exact.effectiveAddress` makes these sums in whole numbers, where nothing wraps, and
cuts each of them down only when it is complete; a sum that does not fit 32 bits is an obstacle. For
operands of three bytes it comes to the same addresses and the same faults as the arithmetic of
words, so there never is such an obstacle: `Exact.effectiveAddress_eq`. This holds whatever the
registers hold and whatever pointers lie on the bus.

What comes of it is an address, in bank zero or in the program bank for the modes that stay there.
An index of one byte is all that an address knows of an index register.
-/

set_option autoImplicit false

namespace W65C816.Addressing

/-! ## Sums that must fit -/

/-- What keeps an address from being found when sums are made in whole numbers. -/
inductive Obstacle where
  /-- A sum does not fit 32 bits. -/
  | overflow (sum : Nat)
  | fault (fault : Fault)

namespace Exact

/-- The sum of two numbers modulo a limit. The sum itself has to fit 32 bits. -/
def sumWithin (limit a b : Nat) : Except Obstacle Nat :=
  if a + b < UInt32.size then .ok ((a + b) % limit) else .error (.overflow (a + b))

/-- An answer of the bus. -/
def answer {α : Type} : Except Fault α → Except Obstacle α
  | .ok value => .ok value
  | .error fault => .error (.fault fault)

/-- The word at a position. -/
def word (bus : Bus) (position : Nat) : Except Obstacle Nat := do
  let pointer ← answer (bus.read16 (UInt32.ofNat position))
  pure pointer.toNat

/-- The number of three bytes at a position. -/
def long (bus : Bus) (position : Nat) : Except Obstacle Nat := do
  let pointer ← answer (bus.read24 (UInt32.ofNat position))
  pure pointer.toNat

/-- The address in the direct page, which emulation mode holds at zero. -/
def direct (r : Registers) (operand : Nat) : Except Obstacle Nat :=
  if r.emulation then .ok (operand % Address.bankSize)
  else sumWithin Address.bankSize operand r.dp.toNat

/-- The address of an offset in a bank. -/
def inBank (bank : UInt8) (offset : Nat) : Nat :=
  bank.toNat * Address.bankSize + offset % Address.bankSize

/-- The address of an offset in the data bank, which emulation mode holds at zero. -/
def absolute (r : Registers) (offset : Nat) : Nat :=
  inBank (if r.emulation then 0 else r.db) offset

/-- The displacement that a byte is, as a number to be added to a program counter. -/
def displacement (operand : Nat) : Nat :=
  if operand % 0x100 < 0x80 then operand % 0x100 else operand % 0x100 + 0xFF00

/-- The address that an instruction in the given mode works on. A program counter goes round in its
bank, so what is added to it is no sum that has to fit. -/
def effectiveAddress (mode : Mode) (operand : Nat) (r : Registers) (bus : Bus) :
    Except Obstacle Nat :=
  let x := r.xIndex.toNat
  let y := r.yIndex.toNat
  match mode with
  | .direct => direct r operand
  | .directIndexedX => do sumWithin Address.bankSize (← direct r operand) x
  | .directIndexedY => do sumWithin Address.bankSize (← direct r operand) y
  | .directIndirect => do
    let pointer ← word bus (← direct r operand)
    pure (absolute r pointer)
  | .directIndexedIndirect => do
    let pointer ← word bus (← sumWithin Address.bankSize (← direct r operand) x)
    pure (absolute r pointer)
  | .directIndirectIndexed => do
    let pointer ← word bus (← direct r operand)
    sumWithin Address.space (absolute r pointer) y
  | .directIndirectLong => do long bus (← direct r operand)
  | .directIndirectIndexedLong => do
    let pointer ← long bus (← direct r operand)
    sumWithin Address.space pointer y
  | .absolute => pure (absolute r operand)
  | .absoluteIndexedX => sumWithin Address.space (absolute r operand) x
  | .absoluteIndexedY => sumWithin Address.space (absolute r operand) y
  | .absoluteLong => pure (operand % Address.space)
  | .absoluteLongIndexedX => sumWithin Address.space operand x
  | .absoluteIndirect => do
    let target ← word bus (operand % Address.bankSize)
    pure (inBank r.pb target)
  | .absoluteIndexedIndirect => do
    let offset ← sumWithin Address.bankSize operand x
    let target ← word bus (inBank r.pb offset)
    pure (inBank r.pb target)
  | .absoluteIndirectLong => long bus (operand % Address.bankSize)
  | .stackRelative => sumWithin Address.bankSize r.sp.toNat operand
  | .stackRelativeIndirectIndexed => do
    let pointer ← word bus (← sumWithin Address.bankSize r.sp.toNat operand)
    sumWithin Address.space (absolute r pointer) y
  | .programCounterRelative => pure (inBank r.pb (r.pc.toNat + displacement operand))
  | .programCounterRelativeLong => pure (inBank r.pb (r.pc.toNat + operand))
  | .implied | .accumulator | .immediate | .blockMove =>
    .error (.fault (.notSupported mode .effectiveAddress))

/-! ## Words and whole numbers -/

/-- An address that was found is the number that it is. -/
def outcome : Except Fault UInt32 → Except Obstacle Nat
  | .ok address => .ok address.toNat
  | .error fault => .error (.fault fault)

variable {r : Registers} {bus : Bus} {operand : UInt32}

/-- A sum that fits in 32 bits is reduced to its limit. -/
theorem sumWithin_of_fits {limit a b : Nat} (fits : a + b < UInt32.size) :
    sumWithin limit a b = .ok ((a + b) % limit) :=
  if_pos fits

/-- A word takes its sums modulo the size of a bank. -/
theorem sumWithin_bank (base index : UInt16) :
    sumWithin Address.bankSize base.toUInt32.toNat index.toNat =
      .ok (base + index).toUInt32.toNat := by
  have := base.toNat_lt
  have := index.toNat_lt
  rw [UInt16.toNat_toUInt32, UInt16.toNat_toUInt32, UInt16.toNat_add]
  exact sumWithin_of_fits (by rw [UInt32.size]; omega)

/-- An address is indexed modulo the size of the address space. -/
theorem sumWithin_space {base : UInt32} (inside : base.toNat < Address.space) (index : UInt16) :
    sumWithin Address.space base.toNat index.toNat = .ok (indexed base index).toNat := by
  have bound := index.toNat_lt
  rw [Address.space] at inside
  have fits : base.toNat + index.toNat < UInt32.size := by
    rw [UInt32.size]
    omega
  rw [sumWithin_of_fits fits, indexed, Address.toNat_wrap, UInt32.toNat_add,
    UInt16.toNat_toUInt32, Nat.mod_eq_of_lt fits]

/-- The offset of an operand is its remainder by the size of a bank. -/
theorem toNat_offset (operand : UInt32) :
    (Address.offset operand).toNat = operand.toNat % Address.bankSize := by
  simp [Address.offset, Address.bankSize]

/-- An operand is cut down to a word before a word is added to it, or together with the sum. -/
theorem sumWithin_operand (small : operand.toNat < Address.space) (word : UInt16) :
    sumWithin Address.bankSize operand.toNat word.toNat =
      .ok (Address.offset operand + word).toUInt32.toNat := by
  have bound := word.toNat_lt
  rw [Address.space] at small
  have fits : operand.toNat + word.toNat < UInt32.size := by
    rw [UInt32.size]
    omega
  rw [sumWithin_of_fits fits, UInt16.toNat_toUInt32, UInt16.toNat_add, toNat_offset,
    Address.bankSize, Nat.mod_add_mod]

/-- The order of the two terms of a sum does not matter. -/
theorem sumWithin_comm (limit a b : Nat) : sumWithin limit a b = sumWithin limit b a := by
  rw [sumWithin, sumWithin, Nat.add_comm]

/-- The 32-bit sum of the stack pointer and an operand is the exact one. -/
theorem stackRelative_eq (small : operand.toNat < Address.space) (r : Registers) :
    sumWithin Address.bankSize r.sp.toNat operand.toNat =
      .ok (stackRelative r operand).toUInt32.toNat := by
  rw [sumWithin_comm, sumWithin_operand small, stackRelative, UInt16.add_comm]

/-- The 32-bit sum of the direct page and an operand is the exact one. -/
theorem direct_eq (small : operand.toNat < Address.space) (r : Registers) :
    direct r operand.toNat = .ok (Addressing.direct r operand).toUInt32.toNat := by
  unfold direct Addressing.direct
  split
  · rw [UInt16.toNat_toUInt32, toNat_offset]
  · exact sumWithin_operand small r.dp

/-- An exact address within a bank is the one that the bank and the offset make. -/
theorem inBank_eq (bank : UInt8) (offset : Nat) :
    inBank bank offset = (Address.ofBank bank (UInt16.ofNat offset)).toNat := by
  rw [inBank, Address.toNat_ofBank, UInt16.toNat_ofNat', Address.bankSize]

/-- An exact absolute address is in the data bank. -/
theorem absolute_eq (r : Registers) (offset : Nat) :
    absolute r offset = (Addressing.absolute r (UInt16.ofNat offset)).toNat :=
  inBank_eq _ offset

/-- A negative displacement is a large one. -/
theorem toNat_signExtend (operand : UInt32) :
    (Word.signExtend (Address.low operand)).toNat = displacement operand.toNat := by
  have low : (Address.low operand).toNat = operand.toNat % 0x100 := by
    simp [Address.low, Address.offset, Word.low]
  have positive : Address.low operand < 128 ↔ operand.toNat % 0x100 < 0x80 := by
    rw [UInt8.lt_iff_toNat_lt, low]
    rfl
  unfold Word.signExtend displacement
  by_cases small : operand.toNat % 0x100 < 0x80
  · rw [if_pos (positive.mpr small), if_pos small, UInt8.toNat_toUInt16, low]
  · rw [if_neg (mt positive.mp small), if_neg small, Word.toNat_join, low]
    exact Nat.add_comm _ _

/-! ## Pointers -/

/-- A value goes on to the rest. -/
theorem ok_bind {α β : Type} (value : α) (rest : α → Except Obstacle β) :
    (Except.ok value >>= rest) = rest value := rfl

/-- What is made of a word that is fetched is an address if it is one for each word. -/
theorem word_bind {position : UInt32} {change : UInt16 → UInt32}
    {exact : Nat → Except Obstacle Nat}
    (h : ∀ pointer, exact pointer.toNat = .ok (change pointer).toNat) :
    (word bus position.toNat >>= exact) =
      outcome (bus.read16 position >>= fun pointer => pure (change pointer)) := by
  rw [word, UInt32.ofNat_toNat]
  cases bus.read16 position with
  | ok pointer => exact h pointer
  | error fault => rfl

/-- A 24-bit pointer is read from where the exact sum says. -/
theorem long_eq (bus : Bus) (position : UInt32) :
    long bus position.toNat = outcome (bus.read24 position) := by
  rw [long, UInt32.ofNat_toNat]
  cases bus.read24 position <;> rfl

/-- What is fetched as a pointer of three bytes is an address. -/
theorem long_bind {position : UInt32} (inside : position.toNat ≤ Address.space)
    {change : UInt32 → UInt32} {exact : Nat → Except Obstacle Nat}
    (h : ∀ pointer : UInt32, pointer.toNat < Address.space →
      exact pointer.toNat = .ok (change pointer).toNat) :
    (long bus position.toNat >>= exact) =
      outcome (bus.read24 position >>= fun pointer => pure (change pointer)) := by
  have served := bus.serves_read24 inside
  rw [long, UInt32.ofNat_toNat]
  generalize bus.read24 position = fetched at served
  cases served with
  | ok bound => exact h _ bound
  | error _ _ => rfl

/-! ## Addresses -/

/-- For operands of three bytes no sum exceeds 32 bits, and what comes of the sums is the address
that the arithmetic of words finds, or its fault. -/
theorem effectiveAddress_eq (small : operand.toNat < Address.space) (mode : Mode) (r : Registers)
    (bus : Bus) :
    effectiveAddress mode operand.toNat r bus =
      outcome (Addressing.effectiveAddress mode operand r bus) := by
  have page := direct_eq small r
  have stack := stackRelative_eq small r
  have data (offset : Nat) (index : UInt16) :
      sumWithin Address.space (absolute r offset) index.toNat =
        .ok (indexed (Addressing.absolute r (UInt16.ofNat offset)) index).toNat := by
    rw [absolute_eq]
    exact sumWithin_space (Address.ofBank_lt _ _) index
  have word (pointer : UInt16) : absolute r pointer.toNat =
      (Addressing.absolute r pointer).toNat := by
    rw [absolute_eq, UInt16.ofNat_toNat]
  have dataWord (pointer : UInt16) :
      sumWithin Address.space (absolute r pointer.toNat) r.yIndex.toNat =
        .ok (indexed (Addressing.absolute r pointer) r.yIndex).toNat := by
    rw [data, UInt16.ofNat_toNat]
  have target (pointer : UInt16) :
      inBank r.pb pointer.toNat = (Address.ofBank r.pb pointer).toNat := by
    rw [inBank_eq, UInt16.ofNat_toNat]
  have offset : operand.toNat % Address.bankSize = (Address.offset operand).toUInt32.toNat := by
    rw [UInt16.toNat_toUInt32, toNat_offset]
  cases mode
  case implied | accumulator | immediate | blockMove => rfl
  all_goals simp only [effectiveAddress, Addressing.effectiveAddress]
  case direct => exact page
  case directIndexedX | directIndexedY =>
    rw [page, ok_bind, sumWithin_bank]
    rfl
  case directIndirect =>
    rw [page]
    exact word_bind fun pointer => congrArg Except.ok (word pointer)
  case directIndexedIndirect =>
    simp only [page, ok_bind, sumWithin_bank]
    exact word_bind fun pointer => congrArg Except.ok (word pointer)
  case directIndirectIndexed =>
    rw [page]
    exact word_bind dataWord
  case directIndirectLong =>
    rw [page]
    exact long_eq bus _
  case directIndirectIndexedLong =>
    rw [page]
    refine long_bind ?_ fun pointer inside => sumWithin_space inside _
    exact Nat.le_of_lt (Address.toNat_word_lt _)
  case stackRelative => exact stack
  case stackRelativeIndirectIndexed =>
    rw [stack]
    exact word_bind dataWord
  case absolute => exact congrArg Except.ok (absolute_eq r operand.toNat)
  case absoluteIndexedX | absoluteIndexedY => exact data operand.toNat _
  case absoluteLong => exact congrArg Except.ok (Address.toNat_wrap operand).symm
  case absoluteLongIndexedX => exact sumWithin_space small _
  case absoluteIndirect =>
    rw [offset]
    exact word_bind fun pointer => congrArg Except.ok (target pointer)
  case absoluteIndexedIndirect =>
    rw [sumWithin_operand small, ok_bind, UInt16.toNat_toUInt32, target]
    exact word_bind fun pointer => congrArg Except.ok (target pointer)
  case absoluteIndirectLong =>
    rw [offset]
    exact long_eq bus _
  case programCounterRelative =>
    rw [inBank_eq, UInt16.ofNat_add, UInt16.ofNat_toNat, ← toNat_signExtend, UInt16.ofNat_toNat]
    rfl
  case programCounterRelativeLong =>
    rw [inBank_eq, UInt16.ofNat_add, UInt16.ofNat_toNat]
    rfl

end Exact

variable {mode : Mode} {operand address : UInt32} {r : Registers} {bus : Bus}

/-- Each effective address is in the address space. -/
theorem effectiveAddress_lt (found : effectiveAddress mode operand r bus = .ok address) :
    address.toNat < Address.space := by
  cases leads : mode.hasAddress with
  | true =>
    have served := bus.serves_effectiveAddress leads operand r
    rw [found] at served
    cases served with
    | ok bound => exact bound
  | false =>
    cases mode
    case implied | accumulator | immediate | blockMove => cases found
    all_goals cases leads

/-- An address that is a word lies in bank zero. -/
theorem effectiveAddress_lt_bankSize
    (page : mode ∈ [.direct, .directIndexedX, .directIndexedY, .stackRelative])
    (found : effectiveAddress mode operand r bus = .ok address) :
    address.toNat < Address.bankSize := by
  have inBank (word : UInt16) : word.toUInt32.toNat < Address.bankSize := by
    rw [UInt16.toNat_toUInt32]
    exact word.toNat_lt
  simp only [List.mem_cons, List.not_mem_nil, or_false] at page
  rcases page with rfl | rfl | rfl | rfl <;> cases found <;> exact inBank _

/-- The modes that are relative to the program counter stay in the program bank. -/
theorem bank_effectiveAddress
    (relative : mode = .programCounterRelative ∨ mode = .programCounterRelativeLong)
    (found : effectiveAddress mode operand r bus = .ok address) : Address.bank address = r.pb := by
  rcases relative with rfl | rfl <;> cases found <;> exact Address.bank_ofBank _ _

/-- Nothing but the low bytes of the index registers counts when they are one byte wide. -/
theorem effectiveAddress_of_low (narrow : r.indexWidth = .byte) {x y : UInt16}
    (sameX : Word.low x = Word.low r.x) (sameY : Word.low y = Word.low r.y) (mode : Mode)
    (operand : UInt32) (bus : Bus) :
    effectiveAddress mode operand { r with x, y } bus = effectiveAddress mode operand r bus := by
  have narrow' : ({ r with x, y } : Registers).indexWidth = .byte := narrow
  have xIndex : ({ r with x, y } : Registers).xIndex = r.xIndex := by
    rw [Registers.xIndex, Registers.xIndex, Registers.index, Registers.index, narrow, narrow']
    exact congrArg UInt8.toUInt16 sameX
  have yIndex : ({ r with x, y } : Registers).yIndex = r.yIndex := by
    rw [Registers.yIndex, Registers.yIndex, Registers.index, Registers.index, narrow, narrow']
    exact congrArg UInt8.toUInt16 sameY
  unfold effectiveAddress
  rw [xIndex, yIndex]
  rfl

/-- Addresses are in range, whatever the registers hold and whatever lies on the bus. For an operand
of three bytes the sums that make up an address fit 32 bits one and all, and made in whole numbers
they come to the address or the fault that is found. An address that is found is less than the size
of the address space; it lies in bank zero in the direct page and relative to the stack, and in the
program bank relative to the program counter. When the index registers are one byte wide, what lies
in their high bytes makes no difference. -/
theorem effectiveAddress_in_range (mode : Mode) {operand : UInt32}
    (small : operand.toNat < Address.space) (r : Registers) (bus : Bus) :
    Exact.effectiveAddress mode operand.toNat r bus =
        Exact.outcome (effectiveAddress mode operand r bus) ∧
      (∀ address, effectiveAddress mode operand r bus = .ok address →
        address.toNat < Address.space ∧
          (mode ∈ [.direct, .directIndexedX, .directIndexedY, .stackRelative] →
            address.toNat < Address.bankSize) ∧
          (mode = .programCounterRelative ∨ mode = .programCounterRelativeLong →
            Address.bank address = r.pb)) ∧
      (r.indexWidth = .byte → ∀ x y, Word.low x = Word.low r.x → Word.low y = Word.low r.y →
        effectiveAddress mode operand { r with x, y } bus =
          effectiveAddress mode operand r bus) := by
  refine ⟨Exact.effectiveAddress_eq small mode r bus, fun address found => ?_, ?_⟩
  · exact ⟨effectiveAddress_lt found, fun page => effectiveAddress_lt_bankSize page found,
      fun relative => bank_effectiveAddress relative found⟩
  · intro narrow x y sameX sameY
    exact effectiveAddress_of_low narrow sameX sameY mode operand bus

/-- The greatest operand, indexed by a register whose high byte should not be there, goes round to
the first bank. -/
theorem effectiveAddress_in_range_round :
    let r : Registers := { x := 0xFFFF, emulation := false, status := { index8 := true } }
    let bus := Bus.flat (.whole Memory.least)
    Exact.effectiveAddress .absoluteLongIndexedX 0xFFFFFF r bus = .ok 0xFE ∧
      effectiveAddress .absoluteLongIndexedX 0xFFFFFF { r with x := 0x00FF, y := 0x1200 } bus =
        .ok 0xFE := by
  intro r bus
  have small : (0xFFFFFF : UInt32).toNat < Address.space := by decide
  obtain ⟨exact, -, narrow⟩ :=
    effectiveAddress_in_range .absoluteLongIndexedX small r bus
  have round : indexed 0xFFFFFF r.xIndex = 0xFE := by decide
  have found : effectiveAddress .absoluteLongIndexedX 0xFFFFFF r bus = .ok 0xFE :=
    congrArg Except.ok round
  constructor
  · rw [found] at exact
    exact exact
  · rw [← found]
    exact narrow rfl 0x00FF 0x1200 (by decide) (by decide)

end W65C816.Addressing
