import W65C816.Proofs.Arithmetic.Digits
import W65C816.Proofs.Registers.Wrapping

/-!
# The arithmetic of one limb

Addition and subtraction work on as many digits as the width in force holds, in base sixteen or, in
decimal mode, in base ten. Each of the four is the work of a rule for single digits, with the carry
as what is handed on; a subtraction hands on a borrow, which is the carry's complement.
-/

set_option autoImplicit false

namespace W65C816

namespace Width

/-- The limit of a width is 16 to the number of its digits. -/
theorem limit_eq (width : Width) : width.limit = 16 ^ (2 * width.bytes) := by
  cases width <;> rfl

/-- What counts of a number that is less than the limit is the number. -/
theorem toNat_narrow_ofNat {width : Width} {number : Nat} (h : number < width.limit) :
    (width.narrow (UInt16.ofNat number)).toNat = number := by
  cases width <;>
    simp [narrow, limit, Word.dropHigh, Word.toNat_low] at h ⊢ <;> omega

/-- A value below the limit of a width is not narrowed. -/
theorem narrow_eq_of_lt {width : Width} {value : UInt16} (h : value.toNat < width.limit) :
    width.narrow value = value := by
  apply UInt16.toNat.inj
  simpa using toNat_narrow_ofNat h

end Width

namespace Registers

open Digits

variable {r : Registers} {operand : UInt16}

/-- The accumulator is below the limit of its width. -/
theorem accumulator_lt (r : Registers) : r.accumulator.toNat < r.memoryWidth.limit :=
  Width.narrow_lt _ _

/-- What a subtraction takes beside its operand. -/
def borrow (r : Registers) : Nat :=
  (!r.status.carry).toNat

/-- A borrow is at most one. -/
theorem borrow_le (r : Registers) : r.borrow ≤ 1 :=
  Bool.toNat_le _

/-- The accumulator holds what was loaded, as far as it is wide enough. -/
theorem accumulator_loadAccumulator (r : Registers) (value : UInt16) :
    (r.loadAccumulator value).accumulator = r.memoryWidth.narrow value :=
  Width.narrow_replace _ _ _

/-! ## Addition -/

/-- The sum before it is cut to the width. -/
def sum (r : Registers) (operand : UInt16) : Nat :=
  let binary := r.accumulator.toNat + operand.toNat + r.status.carry.toNat
  if r.status.decimal then decimalAdjust (2 * r.memoryWidth.bytes) binary else binary

/-- Addition keeps of the sum what the width holds, and the carry tells whether there was more. -/
theorem add_eq_sum (small : operand.toNat < r.memoryWidth.limit) :
    (r.add operand).accumulator.toNat = r.sum operand % r.memoryWidth.limit ∧
      (r.add operand).status.carry = decide (r.memoryWidth.limit ≤ r.sum operand) := by
  have counts := Width.narrow_eq_of_lt small
  have positive : 0 < r.memoryWidth.limit := Nat.zero_lt_of_lt small
  constructor
  · rw [add, accumulator_loadAccumulator]
    simp only [counts]
    exact Width.toNat_narrow_ofNat (Nat.mod_lt _ positive)
  · simp only [add, counts]
    rfl

/-- In base sixteen. -/
theorem add_binary (binary : r.status.decimal = false)
    (small : operand.toNat < r.memoryWidth.limit) :
    ((r.add operand).accumulator.toNat, (r.add operand).status.carry.toNat) =
      serially binarySum (2 * r.memoryWidth.bytes) r.accumulator.toNat operand.toNat
        r.status.carry.toNat := by
  have single := Bool.toNat_le r.status.carry
  have bound := r.accumulator_lt
  obtain ⟨kept, carried⟩ := add_eq_sum small
  rw [kept, carried]
  simp only [sum, binary, Bool.false_eq_true, if_false]
  rw [Width.limit_eq] at small bound ⊢
  rw [serially_binarySum bound small]
  generalize 16 ^ (2 * r.memoryWidth.bytes) = limit at small bound ⊢
  congr 1
  by_cases more : limit ≤ r.accumulator.toNat + operand.toNat + r.status.carry.toNat
  · simp only [more, decide_true, Bool.toNat_true]
    exact (Nat.div_eq_of_lt_le (by omega) (by omega)).symm
  · simp only [more, decide_false, Bool.toNat_false]
    exact (Nat.div_eq_of_lt (by omega)).symm

/-- In base ten, by the rule that does not see a digit from sixteen on. -/
theorem add_decimal (decimal : r.status.decimal = true)
    (small : operand.toNat < r.memoryWidth.limit)
    (properA : Proper 10 (2 * r.memoryWidth.bytes) r.accumulator.toNat)
    (properB : Proper 10 (2 * r.memoryWidth.bytes) operand.toNat) :
    ((r.add operand).accumulator.toNat, (r.add operand).status.carry.toNat) =
      serially decimalSum (2 * r.memoryWidth.bytes) r.accumulator.toNat operand.toNat
        r.status.carry.toNat := by
  have single := Bool.toNat_le r.status.carry
  have bound := r.accumulator_lt
  obtain ⟨kept, carried⟩ := add_eq_sum small
  rw [kept, carried]
  simp only [sum, decimal, if_true]
  rw [Width.limit_eq] at small bound ⊢
  rw [decimalAdjust_eq bound small properA properB single]
  obtain ⟨low, last⟩ := digital_decimalSum.serially_lt (2 * r.memoryWidth.bytes)
    r.accumulator.toNat operand.toNat single
  generalize serially decimalSum (2 * r.memoryWidth.bytes) _ _ _ = outcome at low last ⊢
  generalize 16 ^ (2 * r.memoryWidth.bytes) = limit at low ⊢
  obtain ⟨digits, handed⟩ := outcome
  rcases Nat.le_one_iff_eq_zero_or_eq_one.mp last with none | one
  · have none : handed = 0 := none
    simp [none, Nat.mod_eq_of_lt low, Nat.not_le.mpr low]
  · have one : handed = 1 := one
    simp [one, Nat.mod_eq_of_lt low]

/-! ## Subtraction -/

/-- In base sixteen. The overflow flag compares the signs of the operands and of the result. -/
theorem subtract_binary (binary : r.status.decimal = false)
    (small : operand.toNat < r.memoryWidth.limit) :
    ((r.subtract operand).accumulator.toNat, (r.subtract operand).borrow) =
        serially binaryDifference (2 * r.memoryWidth.bytes) r.accumulator.toNat operand.toNat
          r.borrow ∧
      (r.subtract operand).status.overflow =
        (r.memoryWidth.sign r.accumulator != r.memoryWidth.sign operand &&
          r.memoryWidth.sign r.accumulator !=
            r.memoryWidth.sign (r.subtract operand).accumulator) := by
  have counts := Width.narrow_eq_of_lt small
  have bound := r.accumulator_lt
  have positive : 0 < r.memoryWidth.limit := Nat.zero_lt_of_lt small
  have difference := serially_binaryDifference (Width.limit_eq _ ▸ bound)
    (Width.limit_eq _ ▸ small) r.borrow_le
  rw [← Width.limit_eq] at difference
  have wrapped := Nat.mod_lt
    (r.accumulator.toNat + r.memoryWidth.limit - (operand.toNat + r.borrow)) positive
  have kept : (r.subtract operand).accumulator = r.memoryWidth.narrow (UInt16.ofNat
      ((r.accumulator.toNat + r.memoryWidth.limit - (operand.toNat + r.borrow)) %
        r.memoryWidth.limit)) := by
    rw [subtract, accumulator_loadAccumulator]
    simp only [counts, binary, Bool.false_eq_true, if_false]
    rfl
  have handed : (r.subtract operand).borrow =
      if operand.toNat + r.borrow ≤ r.accumulator.toNat then 0 else 1 := by
    have carry : (r.subtract operand).status.carry =
        decide (operand.toNat + r.borrow ≤ r.accumulator.toNat) := by
      simp only [subtract, counts, binary, Bool.false_eq_true, if_false]
      rfl
    rw [borrow, carry]
    split <;> simp_all
  constructor
  · rw [difference, handed, kept, Width.toNat_narrow_ofNat wrapped]
  · rw [kept, Width.sign_narrow]
    simp only [subtract, counts]
    rfl

/-- In base ten. -/
theorem subtract_decimal (decimal : r.status.decimal = true)
    (small : operand.toNat < r.memoryWidth.limit) :
    ((r.subtract operand).accumulator.toNat, (r.subtract operand).borrow) =
      serially subtractDigit (2 * r.memoryWidth.bytes) r.accumulator.toNat operand.toNat
        r.borrow := by
  have counts := Width.narrow_eq_of_lt small
  obtain ⟨low, last⟩ := digital_subtractDigit.serially_lt (2 * r.memoryWidth.bytes)
    r.accumulator.toNat operand.toNat r.borrow_le
  rw [← subtractDigits_eq, ← Width.limit_eq] at low
  rw [← subtractDigits_eq] at last ⊢
  have kept : (r.subtract operand).accumulator.toNat = (subtractDigits (2 * r.memoryWidth.bytes)
      r.accumulator.toNat operand.toNat r.borrow).1 := by
    rw [subtract, accumulator_loadAccumulator]
    simp only [counts, decimal, if_true]
    exact Width.toNat_narrow_ofNat low
  have handed : (r.subtract operand).borrow = (subtractDigits (2 * r.memoryWidth.bytes)
      r.accumulator.toNat operand.toNat r.borrow).2 := by
    have carry : (r.subtract operand).status.carry = ((subtractDigits (2 * r.memoryWidth.bytes)
        r.accumulator.toNat operand.toNat r.borrow).2 == 0) := by
      simp only [subtract, counts, decimal, if_true]
      rfl
    rw [borrow, carry]
    rcases Nat.le_one_iff_eq_zero_or_eq_one.mp last with none | one
    · rw [none]
      rfl
    · rw [one]
      rfl
  rw [kept, handed]

end Registers

end W65C816
