import W65C816.Proofs.Execution.Returns
import W65C816.Proofs.Execution.StackOrder
import W65C816.Proofs.Registers.DirectOperations

/-!
# The saved status

`PHP` saves the status on the stack and `PLP` restores it. The bits of the byte stand for other
things in emulation mode than in native mode, and restoring cuts the index registers to their width.
For registers that are well-formed everything comes back as it was but for the break flag: in
emulation mode it is saved as set, so it is set afterwards, `Instruction.restore_of_save`.
-/

set_option autoImplicit false

namespace W65C816

namespace Registers

/-- The registers as a saved status shows them: in emulation mode the break flag is set. -/
def withSavedBreak (r : Registers) : Registers :=
  { r with breakFlag := r.emulation || r.breakFlag }

/-- What is pushed is the status with the saved break flag. -/
theorem pushedStatus_eq (r : Registers) : r.pushedStatus = r.withSavedBreak.statusByte := by
  unfold pushedStatus withSavedBreak
  split
  · next emulation => rw [emulation, Bool.true_or, ← emulation]
  · next native => rw [Bool.eq_false_iff.mpr native, Bool.false_or, ← Bool.eq_false_iff.mpr native]

/-- Index registers that fit their width are not cut. -/
theorem WellFormed.applyIndexWidth_eq {r : Registers} (wf : r.WellFormed) :
    r.applyIndexWidth = r := by
  have fits : r.xIndex = r.x ∧ r.yIndex = r.y := by
    unfold xIndex yIndex index
    cases width : r.indexWidth with
    | word => exact ⟨rfl, rfl⟩
    | byte =>
      have index8 : r.status.index8 = true := by
        obtain emulation | index8 := indexWidth_eq_byte_iff.mp width
        · exact (wf.narrow emulation).2
        · exact index8
      obtain ⟨x, y⟩ := wf.index_le index8
      exact ⟨(Word.dropHigh_eq_iff r.x).mpr x, (Word.dropHigh_eq_iff r.y).mpr y⟩
  unfold Registers.applyIndexWidth
  rw [fits.1, fits.2]

/-- Restoring the status that the registers show changes nothing but the break flag, which is taken
from the byte in emulation mode. -/
theorem WellFormed.setStatusByte_statusByte {r : Registers} (wf : r.WellFormed)
    (breakFlag : Bool) :
    r.setStatusByte { r with breakFlag : Registers }.statusByte =
      { r with breakFlag := if r.emulation then breakFlag else r.breakFlag } := by
  have restored : r.setStatusByte { r with breakFlag : Registers }.statusByte =
      { r with breakFlag := if r.emulation then breakFlag else r.breakFlag :
        Registers }.applyIndexWidth := by
    by_cases mode : r.emulation = true
    · obtain ⟨memory, index⟩ := wf.narrow mode
      simp only [Registers.setStatusByte, Registers.statusByte, if_pos mode, Flags.ofByte_toByte]
      congr 2
      exact withNarrowWidths_of_narrow memory index
    · simp only [Registers.setStatusByte, Registers.statusByte, if_neg mode, Flags.ofByte_toByte]
  rw [restored]
  exact WellFormed.applyIndexWidth_eq ⟨wf.narrow, wf.accumulator_le, wf.index_le, wf.stack⟩

/-- Setting the status to what was pushed brings it back, up to the break flag. -/
theorem WellFormed.setStatusByte_pushedStatus {r : Registers} (wf : r.WellFormed) :
    r.setStatusByte r.pushedStatus = r.withSavedBreak := by
  rw [pushedStatus_eq, withSavedBreak, wf.setStatusByte_statusByte]
  cases r.emulation <;> rfl

/-- The break flag stays as it is exactly if it was set in emulation mode. -/
theorem withSavedBreak_eq_iff (r : Registers) :
    r.withSavedBreak = r ↔ (r.emulation = true → r.breakFlag = true) := by
  constructor
  · intro same emulation
    have flag : (r.emulation || r.breakFlag) = r.breakFlag := congrArg Registers.breakFlag same
    rw [← flag, emulation, Bool.true_or]
  · intro marked
    have flag : (r.emulation || r.breakFlag) = r.breakFlag :=
      Bool.or_eq_right_iff_imp.mpr marked
    exact congrArg (fun breakFlag => { r with breakFlag : Registers }) flag

/-- In emulation mode the break flag can be told from the status byte. -/
theorem index8_statusByte {r : Registers} (emulation : r.emulation = true) :
    (Flags.ofByte r.statusByte).index8 = r.breakFlag := by
  rw [statusByte, if_pos emulation, Flags.ofByte_toByte]

/-- The status is pushed as it is except in emulation mode with the break flag clear. -/
theorem statusByte_withSavedBreak_eq_iff (r : Registers) :
    r.withSavedBreak.statusByte = r.statusByte ↔ (r.emulation = true → r.breakFlag = true) := by
  constructor
  · intro same emulation
    have emulation' : r.withSavedBreak.emulation = true := emulation
    have flag : r.withSavedBreak.breakFlag = r.breakFlag := by
      rw [← index8_statusByte emulation', same, index8_statusByte emulation]
    rw [← flag, withSavedBreak, emulation, Bool.true_or]
  · intro marked
    rw [r.withSavedBreak_eq_iff.mpr marked]

end Registers

namespace Instruction

variable {core : Core} {save restore : Instruction}

/-- Between saving and restoring the status the stack pointer moves down and up again. -/
theorem exists_restored (saves : save.opcode = .php) (restores : restore.opcode = .plp)
    (wf : core.registers.WellFormed)
    (reachable : core.bus.check core.registers.sp.toUInt32 1 = .ok ())
    (operands operands' : Operands) :
    ∃ bus, (do save.execute operands; restore.execute operands') core =
      .ok () ⟨core.registers.withSavedBreak, bus⟩ := by
  rw [← wf.wrapStack_sp] at reachable
  obtain ⟨next, pushed⟩ := Exec.exists_push8_of_check core.registers.pushedStatus reachable
  obtain ⟨lowered, lays⟩ := Exec.lays_of_push8 pushed
  have byte : Word.low core.registers.pushedStatus.toUInt16 = core.registers.pushedStatus :=
    UInt8.toUInt8_toUInt16 _
  have saved : save.execute operands core = .ok () next := by
    rw [execute, saves]
    exact (congrArg (fun value => Exec.push8 value core) byte).trans pushed
  have back : next.registers.raised 1 = core.registers := by
    rw [lowered, Registers.StackInPage.raised_lowered wf.stack]
  have pulled := Exec.pull8_of_peek (lays.top 0 Nat.one_pos)
  have restored : restore.execute operands' next =
      .ok () ⟨core.registers.withSavedBreak, next.bus⟩ := by
    rw [execute, restores, ← wf.setStatusByte_pushedStatus]
    show (do
      let value ← Exec.pull .byte
      Exec.alter fun r => r.setStatusByte (Word.low value)) next = _
    rw [Exec.pull, bind_assoc, Action.bind_of_ok pulled, back]
    exact congrArg (fun value => EStateM.Result.ok ()
      (Core.mk (core.registers.setStatusByte value) next.bus)) byte
  exact ⟨next.bus, (Action.bind_of_ok saved).trans restored⟩

/-- Saving the status and restoring it leaves all of the registers as they were, but in emulation
mode the break flag is set afterwards. So the registers, and the status byte, are the same as before
exactly if the mode is native or the flag was set before. -/
theorem restore_of_save (saves : save.opcode = .php) (restores : restore.opcode = .plp)
    (wf : core.registers.WellFormed)
    (reachable : core.bus.check core.registers.sp.toUInt32 1 = .ok ())
    (operands operands' : Operands) :
    ∃ next, (do save.execute operands; restore.execute operands') core = .ok () next ∧
      next.registers =
        { core.registers with
          breakFlag := core.registers.emulation || core.registers.breakFlag } ∧
      (next.registers = core.registers ↔
        (core.registers.emulation = true → core.registers.breakFlag = true)) ∧
      (next.registers.statusByte = core.registers.statusByte ↔
        (core.registers.emulation = true → core.registers.breakFlag = true)) := by
  obtain ⟨bus, done⟩ := exists_restored saves restores wf reachable operands operands'
  exact ⟨_, done, rfl, core.registers.withSavedBreak_eq_iff,
    core.registers.statusByte_withSavedBreak_eq_iff⟩

section PowerOn

/-- `PHP` of the standard instruction set. -/
def standardPhp : Instruction :=
  ⟨0x08, .php, .implied⟩

/-- `PLP` of the standard instruction set. -/
def standardPlp : Instruction :=
  ⟨0x28, .plp, .implied⟩

/-- The core after power-on on the smallest memory. The break flag is clear. -/
def poweredOn : Core :=
  ⟨{}, .flat (View.whole .least)⟩

/-- There is a stack when the power is turned on. -/
theorem reachable_poweredOn : poweredOn.bus.check poweredOn.registers.sp.toUInt32 1 = .ok () :=
  Bus.check_of_stackPage (by decide) (Nat.le_of_eq Memory.size_least.symm)

/-- When the power is turned on, saving and restoring the status sets the break flag. -/
theorem restore_of_save_poweredOn :
    ∃ next, (do standardPhp.execute {}; standardPlp.execute {}) poweredOn = .ok () next ∧
      next.registers = { breakFlag := true } := by
  have saves : standardPhp.opcode = .php := rfl
  have restores : standardPlp.opcode = .plp := rfl
  obtain ⟨next, done, registers, -⟩ :=
    restore_of_save saves restores Registers.wellFormed_default reachable_poweredOn {} {}
  exact ⟨next, done, registers⟩

/-- The status is not as it was before. -/
theorem not_restored_poweredOn :
    poweredOn.registers.WellFormed ∧
      poweredOn.bus.check poweredOn.registers.sp.toUInt32 1 = .ok () ∧
      ∃ next, (do standardPhp.execute {}; standardPlp.execute {}) poweredOn = .ok () next ∧
        next.registers.statusByte ≠ poweredOn.registers.statusByte ∧
        next.registers.breakFlag ≠ poweredOn.registers.breakFlag := by
  have wf : poweredOn.registers.WellFormed := Registers.wellFormed_default
  have saves : standardPhp.opcode = .php := rfl
  have restores : standardPlp.opcode = .plp := rfl
  obtain ⟨bus, done⟩ := exists_restored saves restores wf reachable_poweredOn {} {}
  have status : poweredOn.registers.withSavedBreak.statusByte ≠ poweredOn.registers.statusByte := by
    decide
  exact ⟨wf, reachable_poweredOn, _, done, status, nofun⟩

end PowerOn

end Instruction

end W65C816
