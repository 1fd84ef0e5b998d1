import W65C816.Program.Assembly
import W65C816.Proofs.Execution.Instrumentation
import W65C816.Proofs.Memory.Rows
import W65C816.Proofs.Program.Writing

/-!
# Hooks that are written into a program

An assembler registers a hook in a slot and writes the `WDM` that names the slot. What it wrote is
read as a `WDM` whose operand is one more than the index, on a flat bus and on a banked one, under
any widths, and in whatever mode the table has the instruction: `DispatchTable.decodeAt_hook`. So it
summons the hook in that slot, and `Assembler.Wrote.summons` says that this is the hook that the
assembler registered, for as long as nothing changes the slot or the bytes.
-/

set_option autoImplicit false

namespace W65C816

open Addressing

/-! ## Slots -/

/-- A slot that is given out is empty. -/
theorem HookTable.get?_of_firstFree? {hooks : HookTable} {index : Fin hookSlots}
    (h : hooks.firstFree? = some index) : hooks.get? index = none := by
  unfold firstFree? Vector.findFinIdx? at h
  obtain ⟨place, found, rfl⟩ := Option.map_eq_some_iff.mp h
  have empty := (Array.findFinIdx?_eq_some_iff.mp found).1
  rw [Option.isNone_iff_eq_none] at empty
  rw [get?, dif_pos (Fin.isLt _)]
  exact empty

/-- A hook that is registered lies in a slot that was empty before. -/
theorem HookTable.register_eq_ok {hooks next : HookTable} {hook : Hook} {index : Nat}
    (h : register hook hooks = .ok index next) :
    index < hookSlots ∧ hooks.get? index = none ∧ next = hooks.put index (some hook) := by
  unfold register at h
  cases found : hooks.firstFree? with
  | none =>
    rw [found] at h
    cases h
  | some place =>
    rw [found] at h
    injection h with same written
    subst same
    exact ⟨place.isLt, get?_of_firstFree? found, written.symm⟩

/-! ## Instructions on any bus -/

namespace Instruction

variable {instruction : Instruction} {widths : Widths} {bus : Bus} {position : UInt32}

/-- An instruction with one operand byte is read where the byte is. -/
theorem decode_of_byte (single : instruction.mode ≠ .blockMove)
    (h : instruction.operandLength widths = .ok 1) {value : UInt8}
    (read : bus.read8 position = .ok value) :
    instruction.decode bus position widths = .ok { first := value.toUInt32, length := 1 } := by
  rw [decode_number single h]
  simp only [Bus.readNumber, read, bind, Except.bind, pure, Except.pure]

/-- A block move is read where its two banks are. -/
theorem decode_of_banks (move : instruction.mode = .blockMove)
    (h : instruction.operandLength widths = .ok 2) {destination source : UInt8}
    (holds : bus.Holds position [destination, source]) :
    instruction.decode bus position widths =
      .ok { first := source.toUInt32, second := destination.toUInt32, length := 2 } := by
  have room : bus.check position 2 = .ok () := holds.check nofun
  obtain ⟨first, second, -⟩ := holds
  unfold decode
  rw [h, move]
  simp only [room, first, second, bind, Except.bind, pure, Except.pure]

/-- A `WDM` with an operand of one byte has one operand byte under any widths, unless it is laid out
as a block move. -/
theorem operandLength_of_wdm (wdm : instruction.opcode = .wdm)
    (single : instruction.mode ≠ .blockMove) (fits : instruction.fits .byte = true)
    (widths : Widths) :
    instruction.operandLength widths = .ok 1 ∧ instruction.mode.operandLength?.getD 1 = 1 := by
  have valid : instruction.isValid = true := by
    rw [isValid, wdm]
    rfl
  unfold Instruction.fits at fits
  unfold operandLength
  rw [if_pos valid]
  cases fixed : instruction.mode.operandLength? with
  | none =>
    rw [wdm]
    exact ⟨rfl, rfl⟩
  | some length =>
    simp only [fixed, Bool.or_eq_true, beq_iff_eq, single, false_or] at fits
    rw [fits]
    exact ⟨rfl, rfl⟩

end Instruction

/-- The low byte of a number is the number as a byte. -/
theorem low_ofNat (number : Nat) : Address.low (UInt32.ofNat number) = UInt8.ofNat number := by
  apply UInt8.toNat.inj
  simp [Address.low, Address.offset, Word.low]

namespace DispatchTable

/-- The bytes of the instruction that calls the hook in a slot are read as a `WDM` that names the
slot. -/
theorem decodeAt_hook {table : DispatchTable} {index : Nat} {bytes : List UInt8}
    (h : table.bytesFor (Assembler.hookRequest index) = .ok bytes) {bus : Bus} {offset : UInt32}
    (holds : bus.Holds offset bytes) (widths : Widths) :
    ∃ record, table.decodeAt bus offset widths = .ok record ∧
      record.instruction.opcode = .wdm ∧
      Address.low record.operands.first = UInt8.ofNat (index + 1) ∧
      record.next = offset + UInt32.ofNat bytes.length := by
  obtain ⟨instruction, found, fits, rfl⟩ := (bytesFor_eq_ok_iff table _ bytes).mp h
  have wdm : instruction.opcode = .wdm := opcode_of_lookup found
  have member := mem_of_lookup found
  obtain ⟨code, rest⟩ := holds
  have read {operands : Operands}
      (decoded : instruction.decode bus (offset + 1) widths = .ok operands) :
      table.decodeAt bus offset widths = .ok { offset, instruction, operands } := by
    unfold decodeAt
    rw [code]
    simp only [bind, Except.bind, pure, Except.pure, get_of_mem member, decoded]
  by_cases move : instruction.mode = .blockMove
  · have two : instruction.operandLength widths = .ok 2 := by
      unfold Instruction.operandLength
      rw [if_pos (valid_of_mem member), move]
      rfl
    rw [if_pos move] at rest
    refine ⟨_, read (Instruction.decode_of_banks move two rest), wdm, ?_, ?_⟩
    · exact (low_toUInt32 _).trans (low_ofNat (index + 1))
    · rw [Instruction.encode, if_pos move]
      rfl
  · obtain ⟨one, length⟩ := Instruction.operandLength_of_wdm wdm move fits widths
    have length : instruction.mode.operandLength?.getD
      (Assembler.hookRequest index).width.length = 1 := length
    rw [if_neg move, length] at rest
    refine ⟨_, read (Instruction.decode_of_byte move one rest.1), wdm, ?_, ?_⟩
    · exact (low_toUInt32 _).trans (low_ofNat (index + 1))
    · rw [Instruction.encode, if_neg move, length]
      rfl

end DispatchTable

/-! ## The assembler -/

namespace Assembler

variable {hook : Hook} {index : Nat} {assembler after : Assembler}

/-- From one assembler to the other a hook was put into an empty slot, and the bytes of the
instruction that calls it were written. -/
structure Wrote (hook : Hook) (index : Nat) (assembler after : Assembler) : Prop where
  inside : index < hookSlots
  empty : assembler.hooks.get? index = none
  hooks : after.hooks = assembler.hooks.put index (some hook)
  bytes : ∃ bytes, assembler.table.bytesFor (hookRequest index) = .ok bytes ∧
    after.bus.Holds assembler.offset bytes ∧
    after.offset = assembler.offset + UInt32.ofNat bytes.length

/-- A written instruction has four bytes at most. -/
theorem length_encode_le (instruction : Instruction) (width : OperandWidth)
    (first second : UInt32) : (instruction.encode width first second).length ≤ 4 := by
  unfold Instruction.encode littleEndian
  split
  · exact Nat.le_succ 3
  · rw [List.length_cons, List.length_take]
    exact Nat.succ_le_succ (Nat.min_le_right _ 3)

/-- What a hook instruction has written when it succeeds. -/
theorem wrote_of_writeHook (h : writeHook hook assembler = .ok index after) :
    Wrote hook index assembler after := by
  obtain ⟨table, bus, hooks, offset⟩ := assembler
  simp only [writeHook] at h
  cases registered : HookTable.register hook hooks with
  | error fault hooks' =>
    rw [registered] at h
    cases h
  | ok index' hooks' =>
    obtain ⟨inside, empty, rfl⟩ := HookTable.register_eq_ok registered
    simp only [registered, write, DispatchTable.write] at h
    cases hbytes : table.bytesFor (hookRequest index') with
    | error fault =>
      rw [hbytes] at h
      cases h
    | ok bytes =>
      cases written : Bus.writeBlock offset bytes bus with
      | error fault bus' =>
        simp only [hbytes, written] at h
        cases h
      | ok _ bus' =>
        simp only [hbytes, written] at h
        cases h
        obtain ⟨instruction, -, -, same⟩ := (table.bytesFor_eq_ok_iff _ bytes).mp hbytes
        have short : bytes.length ≤ 65536 := by
          have := length_encode_le instruction (hookRequest index).width
            (hookRequest index).first (hookRequest index).second
          rw [same]
          omega
        exact ⟨inside, empty, rfl, bytes, hbytes, Bus.holds_of_writeBlock short written, rfl⟩

/-- What was written is read as an instruction that summons the hook that was registered, wherever
the slot and the bytes are as the assembler left them. The hook may have been called before. -/
theorem Wrote.summons (h : Wrote hook index assembler after) {bus : Bus} {hooks : HookTable}
    {calls : Nat} (slot : hooks.get? index = some { hook with calls })
    (bytes : after.bus.SameBytes bus assembler.offset after.offset) (widths : Widths) :
    ∃ record, assembler.table.decodeAt bus assembler.offset widths = .ok record ∧
      record.next = after.offset ∧ record.instruction.opcode = .wdm ∧
      ∀ registers, record.summons hooks registers = some
        { index, hook := { hook with calls }
          sighting := { slot := UInt8.ofNat (index + 1), instruction := record.instruction,
                        registers } } := by
  obtain ⟨row, hrow, holds, offset⟩ := h.bytes
  obtain ⟨instruction, -, -, same⟩ := (assembler.table.bytesFor_eq_ok_iff _ row).mp hrow
  have short : row.length < UInt32.size :=
    Nat.lt_of_le_of_lt (same ▸ length_encode_le _ _ _ _) (by decide)
  rw [offset] at bytes
  obtain ⟨record, read, wdm, operand, next⟩ :=
    DispatchTable.decodeAt_hook hrow (holds.congr short bytes) widths
  refine ⟨record, read, next.trans offset.symm, wdm, fun registers => ?_⟩
  have inside := h.inside
  rw [hookSlots] at inside
  have number : (UInt8.ofNat (index + 1)).toNat = index + 1 := by
    rw [UInt8.toNat_ofNat']
    omega
  have named : UInt8.ofNat (index + 1) ≠ 0 := by
    intro zero
    rw [zero] at number
    cases number
  rw [Machine.summons_of_wdm wdm, operand, if_neg named, number, Nat.add_sub_cancel, slot]
  rfl

end Assembler

end W65C816
