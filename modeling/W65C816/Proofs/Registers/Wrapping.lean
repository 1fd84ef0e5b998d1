import W65C816.Proofs.Registers.WellFormed

/-!
# Registers that wrap

What counts of a value at a width is its remainder by the number of values, and storing it leaves
the rest of a register alone. The index registers wrap at the width in force, and the stack pointer
of emulation mode wraps in its page. Going on from where such a register stands is the same as going
on from where it would stand if it had not wrapped, so a number of small steps comes to one large
one.
-/

set_option autoImplicit false

namespace W65C816

namespace Word

/-- Without its high byte a word has the same low byte. -/
theorem low_dropHigh (word : UInt16) : low (dropHigh word) = low word := by
  apply UInt8.toNat.inj
  simp [toNat_low, dropHigh]

/-- A word with a given low byte has that low byte. -/
theorem low_withLow (word : UInt16) (byte : UInt8) : low (withLow word byte) = byte :=
  low_join _ _

/-- The low byte of a sum is the sum of the low bytes. -/
theorem low_add (a b : UInt16) : low (a + b) = low a + low b :=
  UInt16.toUInt8_add a b

/-- The low byte of a difference is the difference of the low bytes. -/
theorem low_sub (a b : UInt16) : low (a - b) = low a - low b :=
  UInt16.toUInt8_sub a b

end Word

namespace Width

/-- The part that counts is replaced. -/
theorem narrow_replace (width : Width) (old new : UInt16) :
    width.narrow (width.replace old new) = width.narrow new := by
  cases width
  · simp [narrow, replace, Word.withLow, Word.dropHigh]
  · rfl

/-- The sign is in the part that counts. -/
theorem sign_narrow (width : Width) (value : UInt16) :
    width.sign (width.narrow value) = width.sign value := by
  cases width
  · simp [sign, bytes, narrow, Word.bit, Word.dropHigh, Word.toNat_low,
      Nat.testBit_mod_two_pow value.toNat 8]
  · rfl

/-- What has the same part that counts has the same sign. -/
theorem sign_congr {width : Width} {value other : UInt16}
    (same : width.narrow other = width.narrow value) : width.sign other = width.sign value := by
  rw [← sign_narrow, same, sign_narrow]

/-- The sign tells the upper half of the values from the lower one. -/
theorem sign_iff {width : Width} {value : UInt16} (h : value.toNat < width.limit) :
    width.sign value = true ↔ width.limit ≤ 2 * value.toNat := by
  cases width <;>
    simp only [sign, bytes, limit, Word.bit, Nat.testBit_eq_decide_div_mod_eq,
      decide_eq_true_eq] at h ⊢ <;> omega

/-- The sign is the highest bit of the part that counts. -/
theorem toNat_sign {width : Width} {value : UInt16} (small : value.toNat < width.limit) :
    (width.sign value).toNat = 2 * value.toNat / width.limit := by
  have sign := sign_iff small
  cases top : width.sign value with
  | false =>
    rw [Bool.toNat_false, Nat.div_eq_of_lt]
    simpa [top] using sign
  | true =>
    have above := sign.mp top
    cases width <;> simp only [limit, Bool.toNat_true] at * <;> omega

/-- Narrowing reduces a value by the limit of the width. -/
theorem toNat_narrow (width : Width) (value : UInt16) :
    (width.narrow value).toNat = value.toNat % width.limit := by
  have bound := value.toNat_lt
  cases width with
  | byte => simp [narrow, limit, Word.dropHigh, Word.toNat_low]
  | word =>
    simp only [narrow, limit]
    omega

/-- Of two replacements the last counts. -/
theorem replace_replace (width : Width) (old new last : UInt16) :
    width.replace (width.replace old new) last = width.replace old last := by
  cases width
  · simp [replace, Word.withLow]
  · rfl

/-- A replacement does not depend on more than the part that counts. -/
theorem replace_narrow (width : Width) (old new : UInt16) :
    width.replace old (width.narrow new) = width.replace old new := by
  cases width
  · simp [replace, narrow, Word.low_dropHigh]
  · rfl

/-- Replacing a value by itself changes nothing. -/
theorem replace_self (width : Width) (value : UInt16) : width.replace value value = value := by
  cases width
  · exact Word.join_high_low value
  · rfl

/-- Narrowing between two additions does not change the narrowed sum. -/
theorem narrow_add (width : Width) (value a b : UInt16) :
    width.narrow (width.narrow (value + a) + b) = width.narrow (value + (a + b)) := by
  cases width with
  | byte =>
    refine congrArg UInt8.toUInt16 ?_
    simp only [narrow, Word.low_add, Word.low_dropHigh]
    grind
  | word =>
    simp only [narrow]
    grind

/-- Narrowing between two subtractions does not change the narrowed difference. -/
theorem narrow_sub (width : Width) (value a b : UInt16) :
    width.narrow (width.narrow (value - a) - b) = width.narrow (value - (a + b)) := by
  cases width with
  | byte =>
    refine congrArg UInt8.toUInt16 ?_
    simp only [narrow, Word.low_add, Word.low_sub, Word.low_dropHigh]
    grind
  | word =>
    simp only [narrow]
    grind

end Width

namespace Registers

/-- Replacing the sixteen bits of the accumulator changes the two registers that hold them. -/
theorem setC_eq (r : Registers) (value : UInt16) :
    r.setC value = { r with
      a := if r.emulation then Word.dropHigh value else value
      b := if r.emulation then Word.high value else r.b } := by
  unfold setC
  split <;> rfl

/-- All 16 bits of the accumulator are set. -/
theorem c_setC (r : Registers) (value : UInt16) : (r.setC value).c = value := by
  rw [setC_eq]
  unfold c
  split
  · rw [Word.low_dropHigh, Word.join_high_low]
  · rfl

/-! ## The stack pointer -/

/-- The number of bytes that the stack has room for. -/
def stackCapacity (r : Registers) : Nat :=
  if r.emulation then 0x100 else 0x10000

/-- A stack has a page at least. -/
theorem le_stackCapacity (r : Registers) : 0x100 ≤ r.stackCapacity := by
  unfold stackCapacity
  split <;> decide

/-- Wrapping between two steps up the stack does not change where they lead. -/
theorem wrapStack_add (r : Registers) (a b : UInt16) :
    r.wrapStack (r.wrapStack a + b) = r.wrapStack (a + b) := by
  unfold wrapStack
  split
  · rw [Word.low_add, Word.low_withLow, ← Word.low_add]
  · rfl

/-- Wrapping between two steps down the stack does not change where they lead. -/
theorem wrapStack_sub (r : Registers) (a b : UInt16) :
    r.wrapStack (r.wrapStack a - b) = r.wrapStack (a - b) := by
  unfold wrapStack
  split
  · rw [Word.low_sub, Word.low_withLow, ← Word.low_sub]
  · rfl

/-- Wrapping twice is wrapping once. -/
theorem wrapStack_wrapStack (r : Registers) (sp : UInt16) :
    r.wrapStack (r.wrapStack sp) = r.wrapStack sp := by
  simpa using r.wrapStack_add sp 0

/-- In emulation mode the stack pointer is in its page. -/
def StackInPage (r : Registers) : Prop :=
  r.emulation = true → 0x0100 ≤ r.sp ∧ r.sp ≤ 0x01FF

/-- A stack pointer that is where its mode has it does not wrap. -/
theorem StackInPage.wrapStack_sp {r : Registers} (page : r.StackInPage) :
    r.wrapStack r.sp = r.sp := by
  unfold wrapStack
  split
  · next emulation =>
    obtain ⟨low, high⟩ := page emulation
    rw [UInt16.le_iff_toNat_le] at low high
    apply UInt16.toNat.inj
    rw [Word.withLow, Word.toNat_join, Word.toNat_low]
    have page : (Word.high stackPage).toNat = 1 := by decide
    simp only [UInt16.reduceToNat] at low high
    omega
  · rfl

/-- The stack pointer of well-formed registers is in its page. -/
theorem WellFormed.wrapStack_sp {r : Registers} (wf : r.WellFormed) : r.wrapStack r.sp = r.sp :=
  StackInPage.wrapStack_sp wf.stack

/-- The address of the byte that lies a number of places above the stack pointer. -/
def slot (r : Registers) (i : Nat) : UInt16 :=
  r.wrapStack (r.sp + UInt16.ofNat i)

/-- The first slot is where the pointer is. -/
theorem slot_zero (r : Registers) : r.slot 0 = r.wrapStack r.sp := by
  simp [slot]

/-- As long as they fit the stack, different bytes have different addresses. -/
theorem slot_inj {r : Registers} {i j : Nat} (hi : i < r.stackCapacity) (hj : j < r.stackCapacity)
    (same : r.slot i = r.slot j) : i = j := by
  unfold slot wrapStack at same
  unfold stackCapacity at hi hj
  split at same
  · next emulation =>
    rw [if_pos emulation] at hi hj
    have low := congrArg (fun word => (Word.low word).toNat) same
    simp only [Word.low_withLow, Word.toNat_low, UInt16.toNat_add, UInt16.toNat_ofNat'] at low
    omega
  · next native =>
    rw [if_neg native] at hi hj
    have whole := congrArg UInt16.toNat same
    simp only [UInt16.toNat_add, UInt16.toNat_ofNat'] at whole
    omega

/-- The registers after a number of bytes were pushed. -/
def lowered (r : Registers) (count : Nat) : Registers :=
  { r with sp := r.wrapStack (r.sp - UInt16.ofNat count) }

/-- The registers after a number of bytes were pulled. -/
def raised (r : Registers) (count : Nat) : Registers :=
  { r with sp := r.wrapStack (r.sp + UInt16.ofNat count) }

/-- Lowering the pointer twice is lowering it once by both. -/
theorem lowered_lowered (r : Registers) (a b : Nat) :
    (r.lowered a).lowered b = r.lowered (a + b) := by
  have sp := r.wrapStack_sub (r.sp - UInt16.ofNat a) (UInt16.ofNat b)
  have sum : r.sp - UInt16.ofNat a - UInt16.ofNat b = r.sp - UInt16.ofNat (a + b) := by
    rw [UInt16.ofNat_add]
    grind
  rw [sum] at sp
  exact congrArg (fun sp => { r with sp : Registers }) sp

/-- Raising the pointer twice is raising it once by both. -/
theorem raised_raised (r : Registers) (a b : Nat) :
    (r.raised a).raised b = r.raised (a + b) := by
  have sp := r.wrapStack_add (r.sp + UInt16.ofNat a) (UInt16.ofNat b)
  rw [UInt16.add_assoc, ← UInt16.ofNat_add] at sp
  exact congrArg (fun sp => { r with sp : Registers }) sp

/-- Raising the pointer moves on along the slots. -/
theorem slot_raised (r : Registers) (count i : Nat) :
    (r.raised count).slot i = r.slot (i + count) := by
  have sp := r.wrapStack_add (r.sp + UInt16.ofNat count) (UInt16.ofNat i)
  rw [UInt16.add_assoc, ← UInt16.ofNat_add, Nat.add_comm] at sp
  exact sp

/-- Lowering the pointer moves back along the slots. -/
theorem slot_lowered (r : Registers) (count i : Nat) :
    (r.lowered count).slot (i + count) = r.slot i := by
  have sp := r.wrapStack_add (r.sp - UInt16.ofNat count) (UInt16.ofNat (i + count))
  have sum : r.sp - UInt16.ofNat count + UInt16.ofNat (i + count) = r.sp + UInt16.ofNat i := by
    rw [UInt16.ofNat_add]
    grind
  rw [sum] at sp
  exact sp

/-- What was pushed and pulled again leaves the stack pointer where it was. -/
theorem raised_lowered (r : Registers) (count : Nat) :
    (r.lowered count).raised count = { r with sp := r.wrapStack r.sp } := by
  have sp := r.wrapStack_add (r.sp - UInt16.ofNat count) (UInt16.ofNat count)
  rw [UInt16.sub_add_cancel] at sp
  exact congrArg (fun sp => { r with sp : Registers }) sp

/-- A pointer that was lowered is in its page. -/
theorem stackInPage_lowered (r : Registers) (count : Nat) : (r.lowered count).StackInPage :=
  fun emulation => WellFormed.wrapStack_bounds emulation _

/-- Without a push the stack pointer stays, if it is where its mode has it. -/
theorem StackInPage.lowered_zero {r : Registers} (page : r.StackInPage) : r.lowered 0 = r := by
  have sp : (r.lowered 0).sp = r.sp := by
    show r.wrapStack (r.sp - 0) = r.sp
    rw [UInt16.sub_zero, page.wrapStack_sp]
  exact congrArg (fun sp => { r with sp : Registers }) sp

/-- What was pushed and pulled again leaves a stack pointer where it was that is where its mode has
it. -/
theorem StackInPage.raised_lowered {r : Registers} (page : r.StackInPage) (count : Nat) :
    (r.lowered count).raised count = r := by
  rw [r.raised_lowered count, page.wrapStack_sp]

/-! Of the registers, the stack depends on its pointer and on the mode. -/

section Congruence

variable {r s : Registers} (sp : s.sp = r.sp) (emulation : s.emulation = r.emulation)
include sp emulation

/-- The slots depend on the pointer and the mode. -/
theorem slot_congr (i : Nat) : s.slot i = r.slot i := by
  rw [slot, slot, wrapStack, wrapStack, sp, emulation]

/-- Where the pointer wraps to depends on the pointer and the mode. -/
theorem wrapStack_sp_congr : s.wrapStack s.sp = r.wrapStack r.sp := by
  rw [wrapStack, wrapStack, sp, emulation]

/-- Where the pointer is lowered to depends on the pointer and the mode. -/
theorem sp_lowered_congr (count : Nat) : (s.lowered count).sp = (r.lowered count).sp := by
  simp only [lowered, wrapStack, sp, emulation]

/-- Where the pointer is raised to depends on the pointer and the mode. -/
theorem sp_raised_congr (count : Nat) : (s.raised count).sp = (r.raised count).sp := by
  simp only [raised, wrapStack, sp, emulation]

end Congruence

/-- The capacity of the stack depends on the mode. -/
theorem stackCapacity_congr {r s : Registers} (emulation : s.emulation = r.emulation) :
    s.stackCapacity = r.stackCapacity := by
  rw [stackCapacity, stackCapacity, emulation]

end Registers

end W65C816
