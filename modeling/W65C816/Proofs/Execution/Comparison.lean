import W65C816.Proofs.Arithmetic.Multiprecision
import W65C816.Proofs.Execution.Flags

/-!
# Comparisons

A comparison is a subtraction that keeps nothing but what it tells in N, Z and C. For the registers
alone that is `Registers.compare_accumulator`: the comparison forms the difference in sixteen bits
and cuts it to the width afterwards, while the subtraction forms it modulo the values of the width.
Two executions are compared by `Instruction.Tells`. They go alike because a mode delivers the same
operand to both of them: no mode looks at the accumulator, at its width or at the carry. So
`Instruction.compare_tells` holds of every mode, whatever its pointers and indexes are.
-/

set_option autoImplicit false

namespace W65C816

open Addressing

namespace Width

/-- Differences that are the same number modulo the values of a width count as the same value. -/
theorem narrow_sub_eq {width : Width} {a b : UInt16} (small : b.toNat < width.limit) :
    width.narrow (UInt16.ofNat ((a.toNat + width.limit - b.toNat) % width.limit)) =
      width.narrow (a - b) := by
  apply UInt16.toNat.inj
  have a_lt := a.toNat_lt
  rw [toNat_narrow_ofNat (Nat.mod_lt _ (Nat.zero_lt_of_lt small)), toNat_narrow, UInt16.toNat_sub]
  cases width <;> simp only [limit] at small ⊢ <;> omega

end Width

/-- The flags with N, Z and C as another status has them. -/
def Flags.takeNZC (flags told : Flags) : Flags :=
  { flags with negative := told.negative, zero := told.zero, carry := told.carry }

namespace Registers

/-- The registers from which a subtraction takes no borrow and works in base sixteen. -/
def withoutBorrow (r : Registers) : Registers :=
  { r with status := { r.status with carry := true, decimal := false } }

/-- The registers with another accumulator, and in native mode with the given width for it. -/
def withAccumulator (r : Registers) (a : UInt16) (memory8 : Bool) : Registers :=
  { r with a, status := { r.status with memory8 } }

/-- The registers with N, Z and C as other registers have them. -/
def takeNZC (r told : Registers) : Registers :=
  { r with status := r.status.takeNZC told.status }

variable {r : Registers} {operand : UInt16}

/-- Without a borrow and in base sixteen, N and Z tell of the difference and C tells whether it is
one of natural numbers. -/
theorem subtract_withoutBorrow (small : operand.toNat < r.memoryWidth.limit) :
    let told := (r.withoutBorrow.subtract operand).status
    told.Describe r.memoryWidth (r.accumulator - operand) ∧
      told.carry = decide (operand ≤ r.accumulator) := by
  have counts := Width.narrow_eq_of_lt small
  have difference := Width.narrow_sub_eq (a := r.accumulator) small
  refine ⟨⟨?_, ?_⟩, ?_⟩
  · rw [← Width.sign_congr difference]
    conv_rhs => rw [← counts]
    rfl
  · rw [← difference]
    conv_rhs => rw [← counts]
    rfl
  · have carry : (r.withoutBorrow.subtract operand).status.carry =
        decide ((r.memoryWidth.narrow operand).toNat ≤ r.accumulator.toNat) := rfl
    simp only [carry, counts, UInt16.le_iff_toNat_le]

/-- A comparison with the accumulator tells what a subtraction would. -/
theorem compare_accumulator (small : operand.toNat < r.memoryWidth.limit) :
    r.compare r.memoryWidth r.accumulator operand =
      r.takeNZC (r.withoutBorrow.subtract operand) := by
  obtain ⟨⟨negative, zero⟩, carry⟩ := subtract_withoutBorrow small
  simp only [compare, setCarry, setNZ, takeNZC, Flags.takeNZC, negative, zero, carry]

/-- What a comparison tells is a matter of the width and of the two values. -/
theorem compare_eq (r s : Registers) (width : Width) (register operand : UInt16) :
    r.compare width register operand = r.takeNZC (s.compare width register operand) := rfl

end Registers

namespace Effect

/-- An operand that is delivered at a width is below its limit. -/
theorem delivered_lt {width : Width} {mode : Mode} {operand : UInt32} {r : Registers} {bus : Bus}
    {value : UInt16} (h : delivered width mode operand r bus = .ok value) :
    value.toNat < width.limit := by
  have found : readOperand width mode operand ⟨r, bus⟩ = .ok value ⟨r, bus⟩ := by
    rw [readOperand_eq]
    exact Exec.ask_of_ok h
  exact readOperand_lt found

/-- No mode looks at the accumulator, at its width, or at the flags of arithmetic. -/
theorem delivered_congr (width : Width) (mode : Mode) (operand : UInt32) (r : Registers)
    (bus : Bus) (a : UInt16) (carry decimal memory8 : Bool) :
    delivered width mode operand
        { r with a, status := { r.status with carry, decimal, memory8 } } bus =
      delivered width mode operand r bus := by
  cases mode <;> rfl

end Effect

namespace Instruction

/-- From a core, an execution tells in N, Z and C what another one comes to and does nothing else;
or both fail for the same reason, and the core is left as it was. -/
inductive Tells (core : Core) :
    EStateM.Result Fault Core Unit → EStateM.Result Fault Core Unit → Prop
  | ok (told : Core) :
      Tells core (.ok () ⟨core.registers.takeNZC told.registers, core.bus⟩) (.ok () told)
  | error (fault : Fault) (told : Core) : Tells core (.error fault core) (.error fault told)

variable {mode : Mode} {operands : Operands} {r s : Registers} {bus : Bus}
  {width width' : Registers → Width} {change change' : Registers → UInt16 → Registers}

/-- Two instructions that read the same operand compare as what they do to the registers does. -/
theorem tells_of_read
    (same : Effect.delivered (width r) mode operands.first r bus =
      Effect.delivered (width' s) mode operands.first s bus)
    (told : ∀ value, value.toNat < (width r).limit →
      change r value = r.takeNZC (change' s value)) :
    Tells ⟨r, bus⟩ ((Effect.read width change).perform mode operands ⟨r, bus⟩)
      ((Effect.read width' change').perform mode operands ⟨s, bus⟩) := by
  rw [Effect.perform_read_eq, Effect.perform_read_eq, ← same]
  cases found : Effect.delivered (width r) mode operands.first r bus with
  | error fault => exact .error fault _
  | ok value =>
    dsimp only
    rw [told value (Effect.delivered_lt found)]
    exact .ok ⟨change' s value, bus⟩

/-- In each mode and on each operand, `CMP` succeeds exactly if `SBC` does, and tells in N, Z and C
what `SBC` would with the carry set and the decimal flag clear. It does nothing else. `CPX` and
`CPY` tell what `CMP` would if the accumulator held the index register at the same width. -/
theorem compare_tells (mode : Mode) (operands : Operands) (code code' : UInt8) (r : Registers)
    (bus : Bus) :
    let outcome (opcode : Opcode) (code : UInt8) (r : Registers) :=
      ({ code, opcode, mode } : Instruction).execute operands ⟨r, bus⟩
    ((∃ next, outcome .cmp code r = .ok () next) ↔ ∃ next, outcome .sbc code' r = .ok () next) ∧
      Tells ⟨r, bus⟩ (outcome .cmp code r) (outcome .sbc code' r.withoutBorrow) ∧
      ∀ (a : UInt16) (memory8 : Bool), (r.withAccumulator a memory8).memoryWidth = r.indexWidth →
        ((r.withAccumulator a memory8).accumulator = r.xIndex →
          Tells ⟨r, bus⟩ (outcome .cpx code r) (outcome .cmp code' (r.withAccumulator a memory8))) ∧
        ((r.withAccumulator a memory8).accumulator = r.yIndex →
          Tells ⟨r, bus⟩ (outcome .cpy code r)
            (outcome .cmp code' (r.withAccumulator a memory8))) := by
  intro outcome
  have delivered (width : Width) (a : UInt16) (carry decimal memory8 : Bool) :=
    Effect.delivered_congr width mode operands.first r bus a carry decimal memory8
  refine ⟨?_, ?_, fun a memory8 wide => ⟨fun held => ?_, fun held => ?_⟩⟩
  · simp only [outcome, execute, Opcode.effect?, Effect.perform_read_eq]
    cases Effect.delivered r.memoryWidth mode operands.first r bus <;> simp
  · exact tells_of_read (delivered _ _ _ _ _).symm fun _ small =>
      Registers.compare_accumulator small
  · refine tells_of_read (wide ▸ (delivered _ _ _ _ _).symm) fun value _ => ?_
    rw [wide, held]
    exact Registers.compare_eq r _ r.indexWidth r.xIndex value
  · refine tells_of_read (wide ▸ (delivered _ _ _ _ _).symm) fun value _ => ?_
    rw [wide, held]
    exact Registers.compare_eq r _ r.indexWidth r.yIndex value

/-- X of one byte against a constant, beside the low byte of an accumulator of two. -/
theorem compare_tells_immediate :
    let r : Registers :=
      { emulation := false, a := 0x5678, x := 0x34, status := { index8 := true } }
    let bus := Bus.flat (View.whole Memory.least)
    let s := r.withAccumulator 0x5634 true
    s.memoryWidth = r.indexWidth ∧ s.accumulator = r.xIndex ∧
      Tells ⟨r, bus⟩
        (({ code := 0xE0, opcode := .cpx, mode := .immediate } : Instruction).execute
          { first := 0x35, length := 1 } ⟨r, bus⟩)
        (({ code := 0xC9, opcode := .cmp, mode := .immediate } : Instruction).execute
          { first := 0x35, length := 1 } ⟨s, bus⟩) := by
  intro r bus s
  have wide : s.memoryWidth = r.indexWidth := rfl
  have held : s.accumulator = r.xIndex := by decide
  exact ⟨wide, held, ((compare_tells .immediate { first := 0x35, length := 1 } 0xE0 0xC9 r bus).2.2
    0x5634 true wide).1 held⟩

end Instruction

end W65C816
