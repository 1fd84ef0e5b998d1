import Mathlib.Tactic.Ring
import W65C816.Execution.Arithmetic

/-!
# Arithmetic digit by digit

A number is read four bits to a digit, and a rule for one digit says what becomes of two digits and
what was handed on from the digit below: a digit of the result, and what is handed on to the digit
above. `serially` goes through so many digits by such a rule. It does not matter into how many
pieces the digits are cut, `serially_append`, so what an operation does to one limb it does to a
number of many limbs.

The digits stand for a number in base sixteen or in base ten, `value`. A rule that subtracts single
digits subtracts whole numbers, in either base: `Subtracts.serially`. Addition in base sixteen is
exact as well. Addition in base ten hands on the right carry from every digit, and yields the right
digits exactly when no column of the sum comes to sixteen or more: `serially_decimalSum`.
-/

set_option autoImplicit false

namespace W65C816.Digits

/-- Goes through the lowest `digits` digits of two numbers, from the lowest up. -/
def serially (rule : Nat → Nat → Nat → Nat × Nat) : Nat → Nat → Nat → Nat → Nat × Nat
  | 0, _, _, handed => (0, handed)
  | digits + 1, a, b, handed =>
    let lowest := rule (a % 16) (b % 16) handed
    let rest := serially rule digits (a / 16) (b / 16) lowest.2
    (lowest.1 + 16 * rest.1, rest.2)

/-- The number that the lowest `digits` digits stand for in a base. -/
def value (base : Nat) : Nat → Nat → Nat
  | 0, _ => 0
  | digits + 1, number => number % 16 + base * value base digits (number / 16)

/-- The lowest `digits` digits are digits of the base. -/
def Proper (base digits number : Nat) : Prop :=
  ∀ i < digits, number / 16 ^ i % 16 < base

/-- The lowest `digits` decimal digits of a number, four bits to a digit. -/
def encode : Nat → Nat → Nat
  | 0, _ => 0
  | digits + 1, number => number % 10 + 16 * encode digits (number / 10)

variable {base digits a b : Nat} {rule : Nat → Nat → Nat → Nat × Nat}

/-! ## Digits and numbers -/

/-- What the higher digits are does not matter to the lowest. -/
theorem low_mod (low high m : Nat) : (low + 16 ^ (m + 1) * high) % 16 = low % 16 := by
  rw [pow_succ, mul_comm (16 ^ m), mul_assoc, Nat.add_mul_mod_self_left]

/-- Without its lowest digit, a number keeps the higher digits one place down. -/
theorem low_div (low high m : Nat) :
    (low + 16 ^ (m + 1) * high) / 16 = low / 16 + 16 ^ m * high := by
  rw [pow_succ, mul_comm (16 ^ m), mul_assoc, Nat.add_mul_div_left _ _ (by decide)]

/-- A number without its lowest digit has one digit less. -/
theorem div_lt (h : a < 16 ^ (digits + 1)) : a / 16 < 16 ^ digits := by
  rw [pow_succ] at h
  omega

/-- The digits are proper when the lowest is and the others are. -/
theorem proper_succ : Proper base (digits + 1) a ↔ a % 16 < base ∧ Proper base digits (a / 16) := by
  have shift (i : Nat) : a / 16 ^ (i + 1) = a / 16 / 16 ^ i := by
    rw [pow_succ, mul_comm, Nat.div_div_eq_div_mul]
  constructor
  · intro h
    refine ⟨by simpa using h 0 (Nat.succ_pos digits), fun i bound => ?_⟩
    rw [← shift]
    exact h (i + 1) (Nat.succ_lt_succ bound)
  · rintro ⟨first, rest⟩ i bound
    cases i with
    | zero => simpa using first
    | succ i =>
      rw [shift]
      exact rest i (Nat.lt_of_succ_lt_succ bound)

/-- In base sixteen the digits stand for the number itself. -/
theorem value_sixteen (h : a < 16 ^ digits) : value 16 digits a = a := by
  induction digits generalizing a with
  | zero =>
    have h : a = 0 := by simpa using h
    simp [value, h]
  | succ digits ih =>
    rw [value, ih (div_lt h)]
    omega

/-- In base sixteen every digit is proper. -/
theorem proper_sixteen (digits number : Nat) : Proper 16 digits number :=
  fun _ _ => Nat.mod_lt _ (by decide)

/-- A number with digits of a base is below that power of the base. -/
theorem value_lt (h : Proper base digits a) : value base digits a < base ^ digits := by
  induction digits generalizing a with
  | zero => exact Nat.one_pos
  | succ digits ih =>
    obtain ⟨first, rest⟩ := proper_succ.mp h
    have above := ih rest
    calc a % 16 + base * value base digits (a / 16)
        < base + base * value base digits (a / 16) := Nat.add_lt_add_right first _
      _ = base * (value base digits (a / 16) + 1) := by ring
      _ ≤ base * base ^ digits := Nat.mul_le_mul_left base above
      _ = base ^ (digits + 1) := by rw [pow_succ, mul_comm]

/-- Decimal digits are the encoding of the number that they stand for. -/
theorem encode_value (small : a < 16 ^ digits) (h : Proper 10 digits a) :
    encode digits (value 10 digits a) = a := by
  induction digits generalizing a with
  | zero =>
    have small : a = 0 := by simpa using small
    simp [encode, small]
  | succ digits ih =>
    obtain ⟨first, rest⟩ := proper_succ.mp h
    have above := ih (div_lt small) rest
    have low : (a % 16 + 10 * value 10 digits (a / 16)) % 10 = a % 16 := by omega
    have high : (a % 16 + 10 * value 10 digits (a / 16)) / 10 = value 10 digits (a / 16) := by
      omega
    rw [value, encode, low, high, above]
    omega

/-- What lies above the digits does not show in their encoding. -/
theorem encode_mod (digits number : Nat) : encode digits (number % 10 ^ digits) =
    encode digits number := by
  induction digits generalizing number with
  | zero => rfl
  | succ digits ih =>
    have low : number % (10 * 10 ^ digits) % 10 = number % 10 := by
      rw [Nat.mod_mul_right_mod]
    have high : number % (10 * 10 ^ digits) / 10 = number / 10 % 10 ^ digits := by
      rw [Nat.mod_mul_right_div_self]
    rw [pow_succ, mul_comm (10 ^ digits), encode, encode, low, high, ih]

/-- A carry that is what the digits cannot hold of a sum tells whether there was any of it. -/
theorem carry_iff (positive : 0 < base) {sum : Nat} {carry : Bool}
    (h : carry.toNat = sum / base ^ digits) : carry = true ↔ base ^ digits ≤ sum := by
  have single := Bool.toNat_le carry
  rw [← Bool.toNat_eq_one, ← Nat.one_le_div_iff (Nat.pow_pos positive), ← h]
  omega

/-! ## Pieces -/

/-- Digits that are cut into a lower and an upper piece: the upper piece takes over what the lower
one hands on. By induction on the digits of the lower piece. -/
theorem serially_append (rule : Nat → Nat → Nat → Nat × Nat) (m n : Nat) (ha : a < 16 ^ m)
    (hb : b < 16 ^ m) (a' b' handed : Nat) :
    let low := serially rule m a b handed
    let high := serially rule n a' b' low.2
    serially rule (m + n) (a + 16 ^ m * a') (b + 16 ^ m * b') handed =
      (low.1 + 16 ^ m * high.1, high.2) := by
  induction m generalizing a b handed with
  | zero =>
    have ha : a = 0 := by simpa using ha
    have hb : b = 0 := by simpa using hb
    simp [serially, ha, hb]
  | succ m ih =>
    have rest := ih (div_lt ha) (div_lt hb) (rule (a % 16) (b % 16) handed).2
    rw [Nat.succ_add]
    simp only [serially, low_mod, low_div] at rest ⊢
    rw [rest]
    congr 1
    ring

/-- Digits that stand in a piece above another one are digits of the whole. -/
theorem proper_append (m n : Nat) (small : a < 16 ^ m) (low : Proper base m a)
    (high : Proper base n b) : Proper base (m + n) (a + 16 ^ m * b) := by
  induction m generalizing a with
  | zero =>
    have small : a = 0 := by simpa using small
    simpa [small] using high
  | succ m ih =>
    obtain ⟨first, rest⟩ := proper_succ.mp low
    rw [Nat.succ_add, proper_succ, low_mod, low_div]
    exact ⟨first, ih (div_lt small) rest⟩

/-- The rule makes a digit of two digits and hands on at most one. -/
def Digital (rule : Nat → Nat → Nat → Nat × Nat) : Prop :=
  ∀ a b handed, a < 16 → b < 16 → handed ≤ 1 → (rule a b handed).1 < 16 ∧ (rule a b handed).2 ≤ 1

/-- Such a rule makes a number of so many digits. -/
theorem Digital.serially_lt (h : Digital rule)
    (digits a b : Nat) {handed : Nat} (single : handed ≤ 1) :
    (serially rule digits a b handed).1 < 16 ^ digits ∧
      (serially rule digits a b handed).2 ≤ 1 := by
  induction digits generalizing a b handed with
  | zero => exact ⟨Nat.one_pos, single⟩
  | succ digits ih =>
    obtain ⟨digit, next⟩ := h (a % 16) (b % 16) handed (Nat.mod_lt _ (by decide))
      (Nat.mod_lt _ (by decide)) single
    obtain ⟨above, last⟩ := ih (a / 16) (b / 16) next
    refine ⟨?_, last⟩
    simp only [serially, pow_succ]
    omega

/-! ## Addition in base sixteen -/

def binarySum (a b carry : Nat) : Nat × Nat :=
  ((a + b + carry) % 16, (a + b + carry) / 16)

/-- Binary addition yields the sum, cut to the digits, and hands on what is cut off. -/
theorem serially_binarySum (ha : a < 16 ^ digits) (hb : b < 16 ^ digits) (carry : Nat) :
    serially binarySum digits a b carry =
      ((a + b + carry) % 16 ^ digits, (a + b + carry) / 16 ^ digits) := by
  induction digits generalizing a b carry with
  | zero =>
    have ha : a = 0 := by simpa using ha
    have hb : b = 0 := by simpa using hb
    simp [serially, ha, hb, Nat.mod_one]
  | succ digits ih =>
    have rest := ih (div_lt ha) (div_lt hb) ((a % 16 + b % 16 + carry) / 16)
    have above : a / 16 + b / 16 + (a % 16 + b % 16 + carry) / 16 = (a + b + carry) / 16 := by
      omega
    have lowest : (a % 16 + b % 16 + carry) % 16 = (a + b + carry) % 16 := by omega
    simp only [serially, binarySum] at rest ⊢
    rw [rest, above, lowest, pow_succ, mul_comm (16 ^ digits), Nat.mod_mul, Nat.div_div_eq_div_mul]

/-! ## Subtraction -/

/-- The rule subtracts single digits of the base: it borrows one of the next digit when there is
nothing left to take from. -/
def Subtracts (base : Nat) (rule : Nat → Nat → Nat → Nat × Nat) : Prop :=
  ∀ a b borrow, a < base → b < base → borrow ≤ 1 →
    a + base * (rule a b borrow).2 = (rule a b borrow).1 + b + borrow ∧
      (rule a b borrow).1 < base ∧ (rule a b borrow).2 ≤ 1

/-- What subtraction makes of two numbers: proper digits, and a borrow that makes up for them. -/
structure Difference (base digits a b borrow : Nat) (outcome : Nat × Nat) : Prop where
  balance : value base digits a + base ^ digits * outcome.2 =
    value base digits outcome.1 + value base digits b + borrow
  proper : Proper base digits outcome.1
  small : outcome.1 < 16 ^ digits
  single : outcome.2 ≤ 1

/-- A rule that subtracts digits subtracts numbers. -/
theorem Subtracts.serially (h : Subtracts base rule) (narrow : base ≤ 16) {borrow : Nat}
    (ha : Proper base digits a) (hb : Proper base digits b) (single : borrow ≤ 1) :
    Difference base digits a b borrow (serially rule digits a b borrow) := by
  induction digits generalizing a b borrow with
  | zero => exact ⟨by simp [value, Digits.serially], nofun, Nat.one_pos, single⟩
  | succ digits ih =>
    obtain ⟨firstA, restA⟩ := proper_succ.mp ha
    obtain ⟨firstB, restB⟩ := proper_succ.mp hb
    obtain ⟨digit, below, handed⟩ := h _ _ borrow firstA firstB single
    have rest := ih restA restB handed
    simp only [Digits.serially]
    generalize rule (a % 16) (b % 16) borrow = lowest at digit below handed rest
    generalize Digits.serially rule digits (a / 16) (b / 16) lowest.2 = above at rest
    have low : (lowest.1 + 16 * above.1) % 16 = lowest.1 := by omega
    have high : (lowest.1 + 16 * above.1) / 16 = above.1 := by omega
    refine ⟨?_, proper_succ.mpr ?_, ?_, rest.single⟩
    · simp only [value, low, high]
      calc a % 16 + base * value base digits (a / 16) + base ^ (digits + 1) * above.2
          = a % 16 + base * (value base digits (a / 16) + base ^ digits * above.2) := by ring
        _ = a % 16 +
              base * (value base digits above.1 + value base digits (b / 16) + lowest.2) := by
            rw [rest.balance]
        _ = a % 16 + base * lowest.2 +
              base * (value base digits above.1 + value base digits (b / 16)) := by ring
        _ = lowest.1 + b % 16 + borrow +
              base * (value base digits above.1 + value base digits (b / 16)) := by rw [digit]
        _ = lowest.1 + base * value base digits above.1 +
              (b % 16 + base * value base digits (b / 16)) + borrow := by ring
    · rw [low, high]
      exact ⟨below, rest.proper⟩
    · have small := rest.small
      rw [pow_succ]
      omega

def binaryDifference (a b borrow : Nat) : Nat × Nat :=
  if b + borrow ≤ a then (a - (b + borrow), 0) else (a + 16 - (b + borrow), 1)

/-- The binary rule subtracts hexadecimal digits. -/
theorem subtracts_binaryDifference : Subtracts 16 binaryDifference := by
  intro a b borrow ha hb single
  unfold binaryDifference
  split <;> dsimp only <;> omega

/-- Binary subtraction yields the difference, wrapped below zero, and hands on whether it was. -/
theorem serially_binaryDifference (ha : a < 16 ^ digits) (hb : b < 16 ^ digits) {borrow : Nat}
    (single : borrow ≤ 1) :
    serially binaryDifference digits a b borrow =
      ((a + 16 ^ digits - (b + borrow)) % 16 ^ digits, if b + borrow ≤ a then 0 else 1) := by
  have difference := subtracts_binaryDifference.serially (Nat.le_refl 16) (proper_sixteen digits a)
    (proper_sixteen digits b) single
  have balance := difference.balance
  have small := difference.small
  have last := difference.single
  rw [value_sixteen ha, value_sixteen hb, value_sixteen small] at balance
  generalize serially binaryDifference digits a b borrow = outcome at balance small last ⊢
  generalize 16 ^ digits = limit at ha hb balance small ⊢
  obtain ⟨result, handed⟩ := outcome
  rcases Nat.le_one_iff_eq_zero_or_eq_one.mp last with none | one
  · have none : handed = 0 := none
    simp only [none] at balance ⊢
    have wrapped : a + limit - (b + borrow) = result + limit := by omega
    rw [if_pos (by omega), wrapped, Nat.add_mod_right, Nat.mod_eq_of_lt small]
  · have one : handed = 1 := one
    simp only [one, mul_one] at balance ⊢
    have direct : a + limit - (b + borrow) = result := by omega
    rw [if_neg (by omega), direct, Nat.mod_eq_of_lt small]

/-- The decimal rule subtracts decimal digits. -/
theorem subtracts_subtractDigit : Subtracts 10 subtractDigit := by
  intro a b borrow ha hb single
  unfold subtractDigit
  split <;> dsimp only <;> omega

/-- The decimal rule of subtraction makes a digit of any two, decimal or not. -/
theorem digital_subtractDigit : Digital subtractDigit := by
  intro a b borrow ha hb single
  unfold subtractDigit
  split <;> dsimp only <;> omega

/-- The digits of a whole value are subtracted one after the other. -/
theorem subtractDigits_eq (digits a b borrow : Nat) :
    subtractDigits digits a b borrow = serially subtractDigit digits a b borrow := by
  induction digits generalizing a b borrow with
  | zero => rfl
  | succ digits ih => simp only [subtractDigits, serially, ih]

/-- The difference is that of the numbers, wrapped below zero, and there is a borrow exactly when
the first number is the smaller one. -/
theorem Difference.eq {borrow : Nat} {outcome : Nat × Nat}
    (h : Difference base digits a b borrow outcome) (ha : Proper base digits a) :
    (value base digits outcome.1 : Int) =
        ((value base digits a : Int) - value base digits b - borrow) %
          ((base ^ digits : Nat) : Int) ∧
      (outcome.2 = 0 ↔ value base digits b + borrow ≤ value base digits a) := by
  have balance := h.balance
  have below := value_lt h.proper
  have bound := value_lt ha
  generalize base ^ digits = limit at balance below bound ⊢
  rcases Nat.le_one_iff_eq_zero_or_eq_one.mp h.single with none | one
  · rw [none, mul_zero, add_zero] at balance
    have direct : (value base digits a : Int) - value base digits b - borrow =
        value base digits outcome.1 := by omega
    rw [direct, Int.emod_eq_of_lt (by omega) (by omega)]
    exact ⟨rfl, by omega⟩
  · rw [one, mul_one] at balance
    have wrapped : (value base digits a : Int) - value base digits b - borrow =
        value base digits outcome.1 - limit := by omega
    rw [wrapped, Int.sub_emod_right, Int.emod_eq_of_lt (by omega) (by omega)]
    exact ⟨rfl, by omega⟩

/-- A difference in two's complement overflows exactly if the sign of the first number is neither
that of the second one nor that of the result. -/
theorem ssubOverflow_eq {bits a b result borrowed : Nat} (some : 0 < bits) (ha : a < 2 ^ bits)
    (hb : b < 2 ^ bits) (small : result < 2 ^ bits)
    (balance : a + 2 ^ bits * borrowed = result + b) (single : borrowed ≤ 1) :
    BitVec.ssubOverflow (.ofNat bits a) (.ofNat bits b) =
      (decide (2 ^ bits ≤ 2 * a) != decide (2 ^ bits ≤ 2 * b) &&
        decide (2 ^ bits ≤ 2 * a) != decide (2 ^ bits ≤ 2 * result)) := by
  have whole : 2 ^ bits = 2 * 2 ^ (bits - 1) := by rw [← pow_succ', Nat.sub_add_cancel some]
  have half : (2 ^ (bits - 1) : Int) = ((2 ^ (bits - 1) : Nat) : Int) := by
    push_cast
    rfl
  simp only [BitVec.ssubOverflow, BitVec.toInt_eq_toNat_cond, BitVec.toNat_ofNat,
    Nat.mod_eq_of_lt ha, Nat.mod_eq_of_lt hb, half]
  rw [whole] at ha hb small balance ⊢
  generalize 2 ^ (bits - 1) = half at ha hb small balance ⊢
  rw [Bool.eq_iff_iff]
  simp only [Bool.or_eq_true, decide_eq_true_eq, Bool.and_eq_true, bne_iff_ne, ne_eq,
    decide_eq_decide]
  rcases Nat.le_one_iff_eq_zero_or_eq_one.mp single with rfl | rfl <;> split_ifs <;> omega

/-! ## Addition in base ten -/

/-- What decimal addition makes of two digits and a carry. The carry is right. The digit is too if
it is corrected at all: from sixteen on, the sum has carried before anything was corrected. -/
def decimalSum (a b carry : Nat) : Nat × Nat :=
  if a + b + carry ≤ 9 then (a + b + carry, 0)
  else if a + b + carry < 16 then (a + b + carry - 10, 1)
  else (a + b + carry - 16, 1)

/-- The decimal rule of addition makes a digit of any two, decimal or not. -/
theorem digital_decimalSum : Digital decimalSum := by
  intro a b carry ha hb single
  unfold decimalSum
  split_ifs <;> dsimp only <;> omega

/-- What comes together in one column of a decimal sum: two digits and the carry from below. -/
def column (a b carry i : Nat) : Nat :=
  a / 10 ^ i % 10 + b / 10 ^ i % 10 + (a % 10 ^ i + b % 10 ^ i + carry) / 10 ^ i

/-- The lowest column adds the lowest digits and the carry into them. -/
theorem column_zero (a b carry : Nat) : column a b carry 0 = a % 10 + b % 10 + carry := by
  simp [column, Nat.mod_one]

/-- The columns above the first one are those of the numbers without their last digits. -/
theorem column_succ (a b carry i : Nat) :
    column a b carry (i + 1) = column (a / 10) (b / 10) ((a % 10 + b % 10 + carry) / 10) i := by
  have power : 10 ^ (i + 1) = 10 * 10 ^ i := by rw [pow_succ, mul_comm]
  have regroup : a % 10 + 10 * (a / 10 % 10 ^ i) + (b % 10 + 10 * (b / 10 % 10 ^ i)) + carry =
      a % 10 + b % 10 + carry + 10 * (a / 10 % 10 ^ i + b / 10 % 10 ^ i) := by ring
  unfold column
  rw [power, ← Nat.div_div_eq_div_mul, ← Nat.div_div_eq_div_mul, ← Nat.div_div_eq_div_mul,
    Nat.mod_mul, Nat.mod_mul, regroup, Nat.add_mul_div_left _ _ (by decide)]
  congr 2
  ring

/-- Correcting the binary sum from the lowest digit up adds in base ten, by its own rule. -/
theorem decimalAdjust_eq (ha : a < 16 ^ digits) (hb : b < 16 ^ digits)
    (properA : Proper 10 digits a) (properB : Proper 10 digits b) {carry : Nat}
    (single : carry ≤ 1) :
    decimalAdjust digits (a + b + carry) =
      (serially decimalSum digits a b carry).1 +
        16 ^ digits * (serially decimalSum digits a b carry).2 := by
  induction digits generalizing a b carry with
  | zero =>
    have ha : a = 0 := by simpa using ha
    have hb : b = 0 := by simpa using hb
    simp [serially, decimalAdjust, ha, hb]
  | succ digits ih =>
    obtain ⟨firstA, restA⟩ := proper_succ.mp properA
    obtain ⟨firstB, restB⟩ := proper_succ.mp properB
    -- The digit that is corrected, and what it leaves to the digits above.
    obtain ⟨handed, low, high⟩ : (decimalSum (a % 16) (b % 16) carry).2 ≤ 1 ∧
        (if 9 < (a + b + carry) % 16 then a + b + carry + 6 else a + b + carry) % 16 =
          (decimalSum (a % 16) (b % 16) carry).1 ∧
        (if 9 < (a + b + carry) % 16 then a + b + carry + 6 else a + b + carry) / 16 =
          a / 16 + b / 16 + (decimalSum (a % 16) (b % 16) carry).2 := by
      unfold decimalSum
      split_ifs <;> dsimp only <;> omega
    have rest := ih (div_lt ha) (div_lt hb) restA restB handed
    simp only [decimalAdjust, serially]
    rw [low, high, rest]
    ring

/-- What addition by the decimal rule makes of two numbers with decimal digits. The carry is that of
their sum. The digits are those of the sum exactly when every column of it stays below sixteen. -/
theorem serially_decimalSum (properA : Proper 10 digits a) (properB : Proper 10 digits b)
    {carry : Nat} (single : carry ≤ 1) :
    let outcome := serially decimalSum digits a b carry
    let sum := value 10 digits a + value 10 digits b + carry
    outcome.2 = sum / 10 ^ digits ∧
      (outcome.1 = encode digits sum ↔
        ∀ i < digits, column (value 10 digits a) (value 10 digits b) carry i < 16) := by
  induction digits generalizing a b carry with
  | zero => simp [serially, value, encode]
  | succ digits ih =>
    obtain ⟨firstA, restA⟩ := proper_succ.mp properA
    obtain ⟨firstB, restB⟩ := proper_succ.mp properB
    obtain ⟨handed, single', digit, correct⟩ :
        (decimalSum (a % 16) (b % 16) carry).2 = (a % 16 + b % 16 + carry) / 10 ∧
        (decimalSum (a % 16) (b % 16) carry).2 ≤ 1 ∧
        (decimalSum (a % 16) (b % 16) carry).1 < 16 ∧
        ((decimalSum (a % 16) (b % 16) carry).1 = (a % 16 + b % 16 + carry) % 10 ↔
          a % 16 + b % 16 + carry < 16) := by
      unfold decimalSum
      split_ifs <;> dsimp only <;> omega
    obtain ⟨carries, agrees⟩ := ih restA restB single'
    simp only [serially, value] at carries agrees ⊢
    generalize value 10 digits (a / 16) = above at carries agrees ⊢
    generalize value 10 digits (b / 16) = above' at carries agrees ⊢
    generalize serially decimalSum digits (a / 16) (b / 16) _ = rest at carries agrees ⊢
    generalize decimalSum (a % 16) (b % 16) carry = lowest at handed digit correct carries agrees ⊢
    have lastA : (a % 16 + 10 * above) % 10 = a % 16 := by omega
    have lastB : (b % 16 + 10 * above') % 10 = b % 16 := by omega
    have restA : (a % 16 + 10 * above) / 10 = above := by omega
    have restB : (b % 16 + 10 * above') / 10 = above' := by omega
    have low : (a % 16 + 10 * above + (b % 16 + 10 * above') + carry) % 10 =
        (a % 16 + b % 16 + carry) % 10 := by omega
    have high : (a % 16 + 10 * above + (b % 16 + 10 * above') + carry) / 10 =
        above + above' + lowest.2 := by omega
    have both (x y u v : Nat) (hx : x < 16) (hu : u < 16) :
        x + 16 * y = u + 16 * v ↔ x = u ∧ y = v := by omega
    constructor
    · rw [carries, pow_succ, mul_comm (10 ^ digits), ← Nat.div_div_eq_div_mul, high]
    · rw [encode, low, high, both _ _ _ _ digit (by omega), correct, agrees,
        Nat.forall_lt_succ_left, column_zero, lastA, lastB]
      simp only [column_succ, lastA, lastB, restA, restB, handed]

end W65C816.Digits
