import Mathlib.Data.Nat.Digits.Defs
import W65C816.Proofs.Arithmetic.Limbs
import W65C816.Proofs.Execution.Outcomes

/-!
# Numbers of many limbs

A program adds and subtracts numbers that are wider than the accumulator limb by limb, from the
lowest up, and the carry goes from one limb to the next. What the program does in between, to load
a limb and to put the result away, does not matter as long as it leaves the carry alone, so it does
not show in a `Chain`: only the cores on which the additions or subtractions are executed do, in any
mode that delivers the operand.

One of them works on the digits of a limb by a rule; the chain works by the same rule on the digits
of the whole numbers, `Chain.serially`. What it yields in either base then follows from what the
rule does to numbers.
-/

set_option autoImplicit false

namespace W65C816

open Digits

/-- The number whose limbs are given, the lowest first. -/
def Width.number (width : Width) (limbs : List UInt16) : Nat :=
  Nat.ofDigits width.limit (limbs.map UInt16.toNat)

namespace Width

variable {limbs : List UInt16}

/-- The first limb is the lowest. -/
theorem number_cons (width : Width) (limb : UInt16) (limbs : List UInt16) :
    width.number (limb :: limbs) = limb.toNat + 16 ^ (2 * width.bytes) * width.number limbs := by
  rw [number, number, List.map_cons, Nat.ofDigits_cons, ← limit_eq]

/-- Every width has at least one byte. -/
theorem bytes_pos (width : Width) : 0 < width.bytes := by
  cases width <;> decide

/-- As many limbs hold as many digits each as their width has. -/
theorem limit_pow (width : Width) (count : Nat) :
    width.limit ^ count = 16 ^ (2 * width.bytes * count) := by
  rw [limit_eq, ← pow_mul]

/-- A hexadecimal digit is four bits. -/
theorem two_pow_bits (width : Width) (count : Nat) :
    16 ^ (2 * width.bytes * count) = 2 ^ (8 * width.bytes * count) := by
  rw [show 16 = 2 ^ 4 from rfl, ← pow_mul, ← Nat.mul_assoc, ← Nat.mul_assoc]

/-- Limbs within their width make a number with as many digits as they have together. -/
theorem number_lt {width : Width} (small : ∀ limb ∈ limbs, limb.toNat < width.limit) :
    width.number limbs < 16 ^ (2 * width.bytes * limbs.length) := by
  rw [← limit_pow, ← List.length_map UInt16.toNat]
  refine Nat.ofDigits_lt_base_pow_length (by cases width <;> decide) fun digit member => ?_
  obtain ⟨limb, among, rfl⟩ := List.mem_map.mp member
  exact small limb among

/-- Digits that are proper in every limb are proper in the number. -/
theorem proper_number (base : Nat) {width : Width}
    (small : ∀ limb ∈ limbs, limb.toNat < width.limit)
    (proper : ∀ limb ∈ limbs, Proper base (2 * width.bytes) limb.toNat) :
    Proper base (2 * width.bytes * limbs.length) (width.number limbs) := by
  induction limbs with
  | nil => exact nofun
  | cons limb limbs ih =>
    rw [List.forall_mem_cons] at small proper
    have below : limb.toNat < 16 ^ (2 * width.bytes) := width.limit_eq ▸ small.1
    rw [number_cons, List.length_cons, Nat.mul_succ, Nat.add_comm (2 * width.bytes * _)]
    exact proper_append _ _ below proper.1 (ih small.2 proper.2)

/-- The sign of the highest limb tells the upper half of the numbers from the lower one. -/
theorem sign_getLast {width : Width} (some : limbs ≠ [])
    (small : ∀ limb ∈ limbs, limb.toNat < width.limit) :
    width.sign (limbs.getLast some) = true ↔
      16 ^ (2 * width.bytes * limbs.length) ≤ 2 * width.number limbs := by
  induction limbs with
  | nil => exact absurd rfl some
  | cons limb limbs ih =>
    rw [List.forall_mem_cons] at small
    obtain ⟨first, rest⟩ := small
    rw [number_cons, List.length_cons]
    cases limbs with
    | nil =>
      rw [List.getLast_singleton, sign_iff first, limit_eq]
      simp [number]
    | cons next limbs =>
      rw [List.getLast_cons (List.cons_ne_nil _ _), ih (List.cons_ne_nil _ _) rest]
      generalize width.number (next :: limbs) = above
      rw [← limit_pow, ← limit_pow, pow_succ, ← limit_eq]
      obtain ⟨half, even⟩ := dvd_pow (show 2 ∣ width.limit by cases width <;> decide)
        (Nat.succ_ne_zero limbs.length)
      rw [List.length_cons]
      rw [even]
      cases width <;> simp only [limit] at first ⊢ <;> omega

end Width

/-- An instruction that is executed on a core, and the limb that its operands stand for there. -/
structure LimbOperation where
  core : Core
  instruction : Instruction
  operands : Operands
  operand : UInt16

namespace LimbOperation

/-- What the execution comes to. -/
def outcome (x : LimbOperation) : EStateM.Result Fault Core Unit :=
  x.instruction.execute x.operands x.core

def before (x : LimbOperation) : Registers :=
  x.core.registers

def after (x : LimbOperation) : Registers :=
  (Action.stateAfter x.outcome).registers

/-- The limb that is in the accumulator. -/
def limb (x : LimbOperation) : UInt16 :=
  x.before.accumulator

/-- The limb that the execution leaves in the accumulator. -/
def result (x : LimbOperation) : UInt16 :=
  x.after.accumulator

/-- The execution succeeds and leaves the bus alone. -/
def Succeeds (x : LimbOperation) : Prop :=
  x.outcome = .ok () ⟨x.after, x.core.bus⟩

/-- The operation is ready to be executed: with the width and in the base that are asked for, and
its mode delivers the operand. -/
structure Ready (opcode : Opcode) (width : Width) (decimal : Bool) (x : LimbOperation) : Prop where
  delivered : Effect.readOperand width x.instruction.mode x.operands.first x.core =
    .ok x.operand x.core
  opcode : x.instruction.opcode = opcode
  width : x.before.memoryWidth = width
  decimal : x.before.status.decimal = decimal

/-- Both limbs consist of decimal digits. -/
def Decimal (width : Width) (x : LimbOperation) : Prop :=
  Proper 10 (2 * width.bytes) x.limb.toNat ∧ Proper 10 (2 * width.bytes) x.operand.toNat

end LimbOperation

/-- Operations that are executed one after another, the carry being what the one before left. -/
inductive Chain (opcode : Opcode) (width : Width) (decimal : Bool) :
    Bool → List LimbOperation → Bool → Prop
  | nil (carry : Bool) : Chain opcode width decimal carry [] carry
  | cons {x : LimbOperation} {rest : List LimbOperation} {last : Bool}
      (ready : x.Ready opcode width decimal)
      (onward : Chain opcode width decimal x.after.status.carry rest last) :
      Chain opcode width decimal x.before.status.carry (x :: rest) last

/-! ## One operation -/

/-- What is read at a width is below its limit. -/
theorem Bus.readAt_lt {bus : Bus} {width : Width} {position : UInt32} {value : UInt16}
    (h : bus.readAt width position = .ok value) : value.toNat < width.limit := by
  cases width with
  | byte =>
    cases read : bus.read8 position with
    | ok byte =>
      simp only [readAt, read] at h
      cases h
      simpa [Width.limit] using byte.toNat_lt
    | error fault =>
      simp only [readAt, read] at h
      cases h
  | word => exact value.toNat_lt

/-- What a mode delivers at a width counts in full. -/
theorem Effect.readOperand_lt {width : Width} {mode : Addressing.Mode} {operand : UInt32}
    {value : UInt16} {core next : Core}
    (h : readOperand width mode operand core = .ok value next) : value.toNat < width.limit := by
  obtain ⟨target, found, -, read⟩ := Action.exists_of_bind_eq_ok h
  cases target with
  | value constant =>
    cases read
    exact Width.narrow_lt _ _
  | address address => exact Bus.readAt_lt (Exec.ask_eq_ok_iff.mp read).1

namespace LimbOperation

variable {opcode : Opcode} {width : Width} {decimal : Bool} {x : LimbOperation}

/-- The operand of a limb is within the width of the accumulator. -/
theorem Ready.operand_lt (h : x.Ready opcode width decimal) :
    x.operand.toNat < x.before.memoryWidth.limit := by
  rw [h.width]
  exact Effect.readOperand_lt h.delivered

/-- An operation that is ready is carried out on the registers alone. -/
theorem Ready.outcome_eq {change : Registers → UInt16 → Registers}
    (h : x.Ready opcode width decimal)
    (effect : opcode.effect? x.instruction.mode = some (.read Registers.memoryWidth change)) :
    x.outcome = .ok () ⟨change x.before x.operand, x.core.bus⟩ := by
  have delivered := h.delivered
  rw [← h.width] at delivered
  have effect : x.instruction.opcode.effect? x.instruction.mode =
      some (.read Registers.memoryWidth change) := by rw [h.opcode, effect]
  simp only [outcome, Instruction.execute, effect, Effect.perform, Action.bind_apply,
    Exec.registers]
  rw [show Effect.readOperand x.core.registers.memoryWidth x.instruction.mode x.operands.first
    x.core = .ok x.operand x.core from delivered]
  rfl

/-- A limb that is ready succeeds, whatever its opcode makes of the operand. -/
theorem Ready.succeeds {change : Registers → UInt16 → Registers}
    (h : x.Ready opcode width decimal)
    (effect : opcode.effect? x.instruction.mode = some (.read Registers.memoryWidth change)) :
    x.Succeeds := by
  rw [Succeeds, after, h.outcome_eq effect]
  rfl

/-- A limb of an addition adds its operand. -/
theorem Ready.after_adc (h : x.Ready .adc width decimal) : x.after = x.before.add x.operand := by
  rw [after, h.outcome_eq rfl]
  rfl

/-- A limb of a subtraction subtracts its operand. -/
theorem Ready.after_sbc (h : x.Ready .sbc width decimal) :
    x.after = x.before.subtract x.operand := by
  rw [after, h.outcome_eq rfl]
  rfl

end LimbOperation

/-! ## The chain -/

namespace Chain

open LimbOperation

variable {opcode : Opcode} {width : Width} {decimal first last : Bool}
  {limbs : List LimbOperation}

/-- Puts an operation before a chain that begins with the carry that it leaves. -/
theorem before {x : LimbOperation} {next : Bool} (ready : x.Ready opcode width decimal)
    (handed : x.after.status.carry = next) (onward : Chain opcode width decimal next limbs last) :
    Chain opcode width decimal x.before.status.carry (x :: limbs) last :=
  .cons ready (handed ▸ onward)

/-- What an operation does to the digits of a limb, a chain does to the digits of the numbers. The
carry is handed on in the form that the rule has it in. -/
theorem serially (h : Chain opcode width decimal first limbs last)
    (rule : Nat → Nat → Nat → Nat × Nat) (handed : Bool → Nat)
    (each : ∀ x ∈ limbs, x.Ready opcode width decimal →
      Digits.serially rule (2 * width.bytes) x.limb.toNat x.operand.toNat
        (handed x.before.status.carry) = (x.result.toNat, handed x.after.status.carry)) :
    Digits.serially rule (2 * width.bytes * limbs.length) (width.number (limbs.map limb))
        (width.number (limbs.map operand)) (handed first) =
      (width.number (limbs.map result), handed last) := by
  induction h with
  | nil carry => rfl
  | @cons x rest last ready onward ih =>
    have lowest := each x (List.mem_cons_self ..) ready
    have above := ih fun y member => each y (List.mem_cons_of_mem _ member)
    have limb_lt : x.limb.toNat < 16 ^ (2 * width.bytes) := by
      rw [← Width.limit_eq, ← ready.width]
      exact x.before.accumulator_lt
    have operand_lt := ready.operand_lt
    rw [ready.width, Width.limit_eq] at operand_lt
    have whole := serially_append rule (2 * width.bytes) (2 * width.bytes * rest.length) limb_lt
      operand_lt (width.number (rest.map limb)) (width.number (rest.map operand))
      (handed x.before.status.carry)
    simp only [lowest, above] at whole
    simp only [List.map_cons, List.length_cons, Width.number_cons, Nat.mul_succ]
    rw [Nat.add_comm (2 * width.bytes * rest.length), whole]

/-- Every limb of a chain is ready. -/
theorem ready (h : Chain opcode width decimal first limbs last) :
    ∀ x ∈ limbs, x.Ready opcode width decimal := by
  induction h with
  | nil => exact fun x member => absurd member List.not_mem_nil
  | cons now _ ih =>
    intro x member
    rcases List.mem_cons.mp member with rfl | later
    · exact now
    · exact ih x later

/-- The limbs of a chain are within their width. -/
theorem limbs_lt (h : Chain opcode width decimal first limbs last) :
    ∀ value ∈ limbs.map limb, value.toNat < width.limit := by
  intro value member
  obtain ⟨x, among, rfl⟩ := List.mem_map.mp member
  rw [← (h.ready x among).width]
  exact x.before.accumulator_lt

/-- The operands of a chain are within their width. -/
theorem operands_lt (h : Chain opcode width decimal first limbs last) :
    ∀ value ∈ limbs.map operand, value.toNat < width.limit := by
  intro value member
  obtain ⟨x, among, rfl⟩ := List.mem_map.mp member
  exact Effect.readOperand_lt (h.ready x among).delivered

/-- The number in the limbs of a chain has no more digits than they do. -/
theorem number_limbs_lt (h : Chain opcode width decimal first limbs last) :
    width.number (limbs.map limb) < 16 ^ (2 * width.bytes * limbs.length) := by
  simpa using Width.number_lt h.limbs_lt

/-- The number in the operands of a chain has no more digits than they do. -/
theorem number_operands_lt (h : Chain opcode width decimal first limbs last) :
    width.number (limbs.map operand) < 16 ^ (2 * width.bytes * limbs.length) := by
  simpa using Width.number_lt h.operands_lt

/-- Every limb of a chain of additions succeeds. -/
theorem succeeds_of_adc (h : Chain .adc width decimal first limbs last) :
    ∀ x ∈ limbs, x.Succeeds := fun x member => (h.ready x member).succeeds rfl

/-- Every limb of a chain of subtractions succeeds. -/
theorem succeeds_of_sbc (h : Chain .sbc width decimal first limbs last) :
    ∀ x ∈ limbs, x.Succeeds := fun x member => (h.ready x member).succeeds rfl

/-- Decimal limbs make a decimal number. -/
theorem proper_limbs (h : Chain opcode width decimal first limbs last)
    (digits : ∀ x ∈ limbs, x.Decimal width) :
    Proper 10 (2 * width.bytes * limbs.length) (width.number (limbs.map limb)) := by
  have proper := Width.proper_number 10 h.limbs_lt fun value member => by
    obtain ⟨x, among, rfl⟩ := List.mem_map.mp member
    exact (digits x among).1
  simpa using proper

/-- Decimal operands make a decimal number. -/
theorem proper_operands (h : Chain opcode width decimal first limbs last)
    (digits : ∀ x ∈ limbs, x.Decimal width) :
    Proper 10 (2 * width.bytes * limbs.length) (width.number (limbs.map operand)) := by
  have proper := Width.proper_number 10 h.operands_lt fun value member => by
    obtain ⟨x, among, rfl⟩ := List.mem_map.mp member
    exact (digits x among).2
  simpa using proper

/-! ## Addition -/

/-- A chain of binary additions adds the two numbers and the carry. -/
theorem add_binary (h : Chain .adc width false first limbs last) :
    let sum := width.number (limbs.map limb) + width.number (limbs.map operand) + first.toNat
    width.number (limbs.map result) = sum % 16 ^ (2 * width.bytes * limbs.length) ∧
      last.toNat = sum / 16 ^ (2 * width.bytes * limbs.length) := by
  have whole := h.serially binarySum Bool.toNat fun x _ ready => by
    have limb := Registers.add_binary ready.decimal ready.operand_lt
    rw [ready.width] at limb
    rw [LimbOperation.result, ready.after_adc]
    exact limb.symm
  rw [serially_binarySum h.number_limbs_lt h.number_operands_lt] at whole
  exact ⟨(Prod.ext_iff.mp whole).1.symm, (Prod.ext_iff.mp whole).2.symm⟩

/-- A binary addition that begins with the carry clear. -/
theorem add_binary_eq (h : Chain .adc width false false limbs last) :
    let a := width.number (limbs.map limb)
    let b := width.number (limbs.map operand)
    width.number (limbs.map result) = (a + b) % 2 ^ (8 * width.bytes * limbs.length) ∧
      (last = true ↔ 2 ^ (8 * width.bytes * limbs.length) ≤ a + b) := by
  obtain ⟨sum, carries⟩ := h.add_binary
  rw [width.two_pow_bits] at sum carries
  exact ⟨sum, carry_iff (by decide) carries⟩

/-- A chain of decimal additions follows the decimal rule along all of its digits, if they are
decimal ones. -/
theorem add_decimal (h : Chain .adc width true first limbs last)
    (digits : ∀ x ∈ limbs, x.Decimal width) :
    Digits.serially decimalSum (2 * width.bytes * limbs.length) (width.number (limbs.map limb))
        (width.number (limbs.map operand)) first.toNat =
      (width.number (limbs.map result), last.toNat) :=
  h.serially decimalSum Bool.toNat fun x member ready => by
    have limb := Registers.add_decimal ready.decimal ready.operand_lt
    rw [ready.width] at limb
    rw [LimbOperation.result, ready.after_adc]
    exact (limb (digits x member).1 (digits x member).2).symm

/-! ## Subtraction -/

/-- A chain of binary subtractions follows the binary rule along all of its digits. -/
theorem subtract_binary (h : Chain .sbc width false first limbs last) :
    Digits.serially binaryDifference (2 * width.bytes * limbs.length)
        (width.number (limbs.map limb)) (width.number (limbs.map operand)) (!first).toNat =
      (width.number (limbs.map result), (!last).toNat) :=
  h.serially binaryDifference (fun carry => (!carry).toNat) fun x _ ready => by
    have limb := (Registers.subtract_binary ready.decimal ready.operand_lt).1
    rw [ready.width] at limb
    rw [LimbOperation.result, ready.after_sbc]
    exact limb.symm

/-- A chain of decimal subtractions follows the decimal rule along all of its digits. -/
theorem subtract_decimal (h : Chain .sbc width true first limbs last) :
    Digits.serially subtractDigit (2 * width.bytes * limbs.length)
        (width.number (limbs.map limb)) (width.number (limbs.map operand)) (!first).toNat =
      (width.number (limbs.map result), (!last).toNat) :=
  h.serially subtractDigit (fun carry => (!carry).toNat) fun x _ ready => by
    have limb := Registers.subtract_decimal ready.decimal ready.operand_lt
    rw [ready.width] at limb
    rw [LimbOperation.result, ready.after_sbc]
    exact limb.symm

/-- The results of a chain of subtractions are within their width. -/
theorem results_lt (h : Chain .sbc width decimal first limbs last) :
    ∀ value ∈ limbs.map result, value.toNat < width.limit := by
  intro value member
  obtain ⟨x, among, rfl⟩ := List.mem_map.mp member
  have ready := h.ready x among
  have kept : x.after.memoryWidth = width := by
    rw [ready.after_sbc, ← ready.width]
    rfl
  rw [← kept]
  exact x.after.accumulator_lt

/-- What the numbers and the borrow before and after a binary subtraction have to do with each
other. -/
theorem difference_binary (h : Chain .sbc width false first limbs last) :
    Difference 16 (2 * width.bytes * limbs.length) (width.number (limbs.map limb))
      (width.number (limbs.map operand)) (!first).toNat
      (width.number (limbs.map result), (!last).toNat) := by
  rw [← h.subtract_binary]
  exact subtracts_binaryDifference.serially (Nat.le_refl 16) (proper_sixteen _ _)
    (proper_sixteen _ _) (Bool.toNat_le _)

/-- A chain of decimal subtractions leaves the difference of the two numbers in base 10, and the
borrow out of it. -/
theorem difference_decimal (h : Chain .sbc width true first limbs last)
    (digits : ∀ x ∈ limbs, x.Decimal width) :
    Difference 10 (2 * width.bytes * limbs.length) (width.number (limbs.map limb))
      (width.number (limbs.map operand)) (!first).toNat
      (width.number (limbs.map result), (!last).toNat) := by
  rw [← h.subtract_decimal]
  exact subtracts_subtractDigit.serially (by decide) (h.proper_limbs digits)
    (h.proper_operands digits) (Bool.toNat_le _)

/-- The overflow flag that it leaves is that of the numbers in two's complement. -/
theorem overflow_subtract (h : Chain .sbc width false true limbs last) (some : limbs ≠ []) :
    let bits := 8 * width.bytes * limbs.length
    (limbs.getLast some).after.status.overflow =
      BitVec.ssubOverflow (.ofNat bits (width.number (limbs.map limb)))
        (.ofNat bits (width.number (limbs.map operand))) := by
  intro bits
  have ready := h.ready _ (List.getLast_mem some)
  have signs := (Registers.subtract_binary ready.decimal ready.operand_lt).2
  rw [← ready.after_sbc, ready.width] at signs
  have power := width.two_pow_bits limbs.length
  have sign (part : LimbOperation → UInt16)
      (small : ∀ value ∈ limbs.map part, value.toNat < width.limit) :
      width.sign (part (limbs.getLast some)) =
        decide (2 ^ bits ≤ 2 * width.number (limbs.map part)) := by
    have top := Width.sign_getLast (mt List.map_eq_nil_iff.mp some) small
    rw [List.getLast_map, List.length_map, power] at top
    rw [Bool.eq_iff_iff, top, decide_eq_true_iff]
  have limbs_lt := h.number_limbs_lt
  have operands_lt := h.number_operands_lt
  have small := h.difference_binary.small
  have balance := h.difference_binary.balance
  rw [value_sixteen limbs_lt, value_sixteen operands_lt, value_sixteen small] at balance
  rw [power] at small balance limbs_lt operands_lt
  have positive : 0 < bits :=
    Nat.mul_pos (Nat.mul_pos (by decide) width.bytes_pos) (List.length_pos_iff.mpr some)
  rw [ssubOverflow_eq positive limbs_lt operands_lt small balance (Bool.toNat_le _),
    ← sign limb h.limbs_lt, ← sign operand h.operands_lt, ← sign result h.results_lt]
  exact signs

/-- A binary subtraction that begins with the carry set yields the difference modulo what the limbs
can hold, and leaves the carry set exactly if there was enough to subtract from. -/
theorem subtract_binary_eq (h : Chain .sbc width false true limbs last) :
    let a := width.number (limbs.map limb)
    let b := width.number (limbs.map operand)
    (width.number (limbs.map result) : Int) =
        ((a : Int) - b) % 2 ^ (8 * width.bytes * limbs.length) ∧
      (last = true ↔ b ≤ a) := by
  obtain ⟨difference, borrowed⟩ := h.difference_binary.eq (proper_sixteen _ _)
  rw [value_sixteen h.number_limbs_lt, value_sixteen h.number_operands_lt] at difference borrowed
  rw [value_sixteen h.difference_binary.small, width.two_pow_bits] at difference
  simpa using And.intro difference borrowed

/-- A decimal subtraction does the same to the numbers that the digits encode. -/
theorem subtract_decimal_eq (h : Chain .sbc width true true limbs last)
    (decimal : ∀ x ∈ limbs, x.Decimal width) :
    let digits := 2 * width.bytes * limbs.length
    let a := value 10 digits (width.number (limbs.map limb))
    let b := value 10 digits (width.number (limbs.map operand))
    width.number (limbs.map result) =
        encode digits (((a : Int) - b) % 10 ^ digits).toNat ∧
      (last = true ↔ b ≤ a) := by
  intro digits a b
  have outcome := h.difference_decimal decimal
  obtain ⟨difference, borrowed⟩ := outcome.eq (h.proper_limbs decimal)
  have difference : (value 10 digits (width.number (limbs.map result)) : Int) =
      ((a : Int) - b) % 10 ^ digits := by simpa using difference
  rw [← difference, Int.toNat_natCast, encode_value outcome.small outcome.proper]
  exact ⟨rfl, by simpa using borrowed⟩

end Chain

/-- An operation on a constant, on a processor in native mode. -/
def LimbOperation.constant (instruction : Instruction) (width : Width) (decimal carry : Bool)
    (limb operand : UInt16) : LimbOperation where
  core := {
    registers := {
      a := limb
      emulation := false
      status := { memory8 := width = .byte, decimal, carry } }
    bus := .flat (.whole .least) }
  instruction
  operands := { first := operand.toUInt32, length := width.bytes }
  operand

namespace LimbOperation

/-- An immediate operand within the width makes a limb that is ready. -/
theorem ready_constant {instruction : Instruction} (mode : instruction.mode = .immediate)
    (width : Width) (decimal carry : Bool) (limb : UInt16) {operand : UInt16}
    (small : operand.toNat < width.limit) :
    (constant instruction width decimal carry limb operand).Ready instruction.opcode width
      decimal where
  delivered := by
    have target : Addressing.target instruction.mode operand.toUInt32 = fun _ _ =>
        .ok (.value operand.toUInt32) := by
      rw [mode]
      rfl
    have counts : width.narrow (Address.offset operand.toUInt32) = operand := by
      rw [Address.offset, UInt16.toUInt16_toUInt32, Width.narrow_eq_of_lt small]
    simp only [constant, Effect.readOperand, target]
    rw [Action.bind_of_ok (Exec.ask_of_ok rfl)]
    simp only [counts]
    rfl
  opcode := rfl
  width := by cases width <;> rfl
  decimal := rfl

end LimbOperation

open LimbOperation

/-- A number of limbs is subtracted from another one in binary, subtracted in decimal, and added in
binary, if the carry is passed on from limb to limb. -/
theorem chain_subtracts_and_adds (width : Width) {limbs : List LimbOperation} (some : limbs ≠ [])
    (last : Bool) :
    let bits := 8 * width.bytes * limbs.length
    let digits := 2 * width.bytes * limbs.length
    let a := width.number (limbs.map limb)
    let b := width.number (limbs.map operand)
    let result := width.number (limbs.map result)
    (Chain .sbc width false true limbs last →
      (∀ x ∈ limbs, x.Succeeds) ∧ (result : Int) = ((a : Int) - b) % 2 ^ bits ∧
        (last = true ↔ b ≤ a) ∧
        (limbs.getLast some).after.status.overflow =
          BitVec.ssubOverflow (.ofNat bits a) (.ofNat bits b)) ∧
    (Chain .sbc width true true limbs last → (∀ x ∈ limbs, x.Decimal width) →
      (∀ x ∈ limbs, x.Succeeds) ∧
        result = encode digits
          (((value 10 digits a : Int) - value 10 digits b) % 10 ^ digits).toNat ∧
        (last = true ↔ value 10 digits b ≤ value 10 digits a)) ∧
    (Chain .adc width false false limbs last →
      (∀ x ∈ limbs, x.Succeeds) ∧ result = (a + b) % 2 ^ bits ∧
        (last = true ↔ 2 ^ bits ≤ a + b)) := by
  intro bits digits a b result
  refine ⟨fun h => ?_, fun h decimal => ?_, fun h => ?_⟩
  · obtain ⟨difference, enough⟩ := h.subtract_binary_eq
    exact ⟨h.succeeds_of_sbc, difference, enough, h.overflow_subtract some⟩
  · exact ⟨h.succeeds_of_sbc, h.subtract_decimal_eq decimal⟩
  · exact ⟨h.succeeds_of_adc, h.add_binary_eq⟩

/-- Subtracts one from `0x8000` in binary, subtracts one from 8000 in decimal, and adds one to
`0x7FFF`, two bytes each. -/
theorem chain_subtracts_and_adds_one :
    let sbc : Instruction := ⟨0xE9, .sbc, .immediate⟩
    let adc : Instruction := ⟨0x69, .adc, .immediate⟩
    let binary :=
      [constant sbc .byte false true 0x00 0x01, constant sbc .byte false false 0x80 0x00]
    let decimal := [constant sbc .byte true true 0x00 0x01, constant sbc .byte true false 0x80 0x00]
    let sum := [constant adc .byte false false 0xFF 0x01, constant adc .byte false true 0x7F 0x00]
    ((Width.byte.number (binary.map result) : Int) = 0x7FFF ∧
        (binary.getLast (List.cons_ne_nil _ _)).after.status.overflow = true) ∧
      Width.byte.number (decimal.map result) = 0x7999 ∧
      Width.byte.number (sum.map result) = 0x8000 := by
  intro sbc adc binary decimal sum
  have ready (instruction : Instruction) (mode : instruction.mode = .immediate)
      (inTen carry : Bool) (limb operand : UInt16) (small : operand.toNat < Width.byte.limit) :=
    ready_constant mode .byte inTen carry limb small
  obtain ⟨first, -, -⟩ :=
    chain_subtracts_and_adds .byte (List.cons_ne_nil _ _ : binary ≠ []) true
  obtain ⟨-, second, -⟩ :=
    chain_subtracts_and_adds .byte (List.cons_ne_nil _ _ : decimal ≠ []) true
  obtain ⟨-, -, third⟩ := chain_subtracts_and_adds .byte (List.cons_ne_nil _ _ : sum ≠ []) false
  have digits : ∀ x ∈ decimal, x.Decimal .byte := by
    unfold LimbOperation.Decimal Proper
    decide +kernel
  obtain ⟨-, difference, -, overflow⟩ := first <|
    .before (ready sbc rfl false true 0x00 0x01 (by decide)) (by decide +kernel) <|
    .before (ready sbc rfl false false 0x80 0x00 (by decide)) (by decide +kernel) <| .nil true
  obtain ⟨-, decimally, -⟩ := second
    (.before (ready sbc rfl true true 0x00 0x01 (by decide)) (by decide +kernel) <|
      .before (ready sbc rfl true false 0x80 0x00 (by decide)) (by decide +kernel) <| .nil true)
    digits
  obtain ⟨-, total, -⟩ := third <|
    .before (ready adc rfl false false 0xFF 0x01 (by decide)) (by decide +kernel) <|
    .before (ready adc rfl false true 0x7F 0x00 (by decide)) (by decide +kernel) <| .nil false
  refine ⟨⟨difference.trans ?_, overflow.trans ?_⟩, decimally.trans ?_, total.trans ?_⟩
  · decide +kernel
  · decide +kernel
  · decide +kernel
  · decide +kernel

/-- Takes two numbers through decimal addition limb by limb. The carry in the end is that of their
sum. What stands in the limbs is the sum exactly if no column of it, two digits and the carry from
below, comes to sixteen. -/
theorem chain_adds_decimally_iff {width : Width} {first last : Bool} {limbs : List LimbOperation}
    (h : Chain .adc width true first limbs last) (decimal : ∀ x ∈ limbs, x.Decimal width) :
    let digits := 2 * width.bytes * limbs.length
    let a := value 10 digits (width.number (limbs.map limb))
    let b := value 10 digits (width.number (limbs.map operand))
    let sum := a + b + first.toNat
    (∀ x ∈ limbs, x.Succeeds) ∧ (last = true ↔ 10 ^ digits ≤ sum) ∧
      (width.number (limbs.map result) = encode digits (sum % 10 ^ digits) ↔
        ∀ i < digits, column a b first.toNat i < 16) := by
  intro digits a b sum
  obtain ⟨carries, agrees⟩ := serially_decimalSum (h.proper_limbs decimal)
    (h.proper_operands decimal) (Bool.toNat_le first)
  rw [h.add_decimal decimal] at carries agrees
  refine ⟨h.succeeds_of_adc, carry_iff (by decide) carries, ?_⟩
  rw [encode_mod]
  exact agrees

/-- 995 and 7 is 1002. No column comes to more than twelve. -/
theorem chain_adds_decimally_iff_two :
    let adc : Instruction := ⟨0x69, .adc, .immediate⟩
    let limbs := [constant adc .byte true false 0x95 0x07, constant adc .byte true true 0x09 0x00]
    Chain .adc .byte true false limbs false ∧ (∀ x ∈ limbs, x.Decimal .byte) ∧
      Width.byte.number (limbs.map result) = 0x1002 := by
  intro adc limbs
  have low := ready_constant (rfl : adc.mode = .immediate) .byte true false 0x95
    (by decide : (0x07 : UInt16).toNat < Width.byte.limit)
  have high := ready_constant (rfl : adc.mode = .immediate) .byte true true 0x09
    (by decide : (0x00 : UInt16).toNat < Width.byte.limit)
  have chain : Chain .adc .byte true false limbs false :=
    .before low (by decide +kernel) (.before high (by decide +kernel) (.nil false))
  have decimal : ∀ x ∈ limbs, x.Decimal .byte := by
    unfold LimbOperation.Decimal Proper
    decide +kernel
  refine ⟨chain, decimal, ?_⟩
  obtain ⟨-, -, agrees⟩ := chain_adds_decimally_iff chain decimal
  rw [agrees.mpr (by decide +kernel)]
  decide +kernel

/-- Eight and eight does not come to sixteen: the digits carried before they were looked at. -/
theorem not_chain_adds_decimally :
    ¬ ∀ (width : Width) (first last : Bool) (limbs : List LimbOperation),
      Chain .adc width true first limbs last → (∀ x ∈ limbs, x.Decimal width) →
        let digits := 2 * width.bytes * limbs.length
        width.number (limbs.map result) =
          encode digits ((value 10 digits (width.number (limbs.map limb)) +
            value 10 digits (width.number (limbs.map operand)) + first.toNat) % 10 ^ digits) := by
  intro claim
  let adc : Instruction := ⟨0x69, .adc, .immediate⟩
  have ready := ready_constant (rfl : adc.mode = .immediate) .byte true false 0x08
    (by decide : (0x08 : UInt16).toNat < Width.byte.limit)
  have digits : ∀ x ∈ [constant adc .byte true false 0x08 0x08], x.Decimal .byte := by
    unfold LimbOperation.Decimal Proper
    decide +kernel
  have chain : Chain .adc .byte true false [constant adc .byte true false 0x08 0x08] false :=
    .before ready (by decide +kernel) (.nil false)
  have sum := claim .byte false false _ chain digits
  revert sum
  decide +kernel

end W65C816
