import W65C816.Program.Disassembly
import W65C816.Proofs.Execution.Machine
import W65C816.Proofs.Execution.Steps

/-!
# What becomes of the widths

`REP` and `SEP` change the register widths by their operand, unless the processor is in emulation
mode, and this is what `Widths.after` says of them. The instructions that change the mode or restore
the status from the stack change the widths in other ways. All others leave the mode and the widths
alone, which is shown here effect by effect: `Registers.sameMode_effect?`. So a step knows from its
record what the widths are for the next instruction, `Machine.widths_of_step`.
-/

set_option autoImplicit false

namespace W65C816

namespace Width

/-- A width whose flag is cleared is a word. -/
@[simp] theorem ofFlag_clear (narrow cleared : Bool) :
    ofFlag (narrow && !cleared) = if cleared then .word else ofFlag narrow := by
  cases cleared <;> cases narrow <;> rfl

/-- A width whose flag is set is a byte. -/
@[simp] theorem ofFlag_set (narrow set : Bool) :
    ofFlag (narrow || set) = if set then .byte else ofFlag narrow := by
  cases set <;> cases narrow <;> rfl

end Width

namespace Registers

/-- The registers show the same mode and the same width flags. -/
structure SameMode (r s : Registers) : Prop where
  emulation : s.emulation = r.emulation
  memory8 : s.status.memory8 = r.status.memory8
  index8 : s.status.index8 = r.status.index8

/-- Neither the stack pointer nor the program counter show in the mode. -/
theorem frame_sameMode : Frame SameMode where
  refl := fun _ => ⟨rfl, rfl, rfl⟩
  trans := fun h h' => ⟨h'.emulation.trans h.emulation, h'.memory8.trans h.memory8,
    h'.index8.trans h.index8⟩
  stack := fun _ _ => ⟨rfl, rfl, rfl⟩
  program := fun _ _ _ => ⟨rfl, rfl, rfl⟩

/-- The mode and the width flags are all that the widths depend on. -/
theorem SameMode.widths_eq {r s : Registers} (h : SameMode r s) : s.widths = r.widths := by
  unfold widths memoryWidth indexWidth
  rw [h.emulation, h.memory8, h.index8]

/-- Setting the accumulator keeps the widths. -/
theorem sameMode_setC (r : Registers) (value : UInt16) : SameMode r (r.setC value) := by
  unfold setC
  split <;> exact ⟨rfl, rfl, rfl⟩

/-- Moving a byte keeps the widths. -/
theorem sameMode_afterMove (step : UInt16 → UInt16) (destination : UInt8) (r : Registers) :
    SameMode r (Effect.afterMove step destination r) := by
  unfold Effect.afterMove
  have moved := sameMode_setC
    (({ r with db := destination : Registers }.setX (step r.x)).setY (step r.y)) (r.c - 1)
  dsimp only
  split
  · exact ⟨moved.emulation, moved.memory8, moved.index8⟩
  · exact ⟨moved.emulation, moved.memory8, moved.index8⟩

/-- Apart from `REP` and `SEP` and the operations that exchange the mode or restore the status, each
operation in each addressing mode leaves the mode and the width flags alone. -/
theorem sameMode_effect? (mode : Addressing.Mode) {opcode : Opcode} (rep : opcode ≠ .rep)
    (sep : opcode ≠ .sep) (stays : opcode ∉ [Opcode.xce, .plp, .rti]) {effect : Effect}
    (h : opcode.effect? mode = some effect) : effect.Within SameMode := by
  cases opcode <;> simp only [Opcode.effect?, Option.some.injEq, reduceCtorEq] at h <;> subst h
  case rep => exact absurd rfl rep
  case sep => exact absurd rfl sep
  case xce | plp | rti => exact absurd (by decide) stays
  case bit => split <;> exact fun _ _ => ⟨rfl, rfl, rfl⟩
  case asl | lsr | rol | ror | inc | dec | tsb | trb =>
    exact ⟨fun _ => ⟨rfl, rfl, rfl⟩, fun _ _ => ⟨rfl, rfl, rfl⟩⟩
  case brk | cop => exact ⟨fun _ => ⟨rfl, rfl, rfl⟩, fun _ => ⟨rfl, rfl, rfl⟩⟩
  case mvn | mvp => exact fun r destination => sameMode_afterMove _ destination r
  case tsc | tdc | xba =>
    intro r
    have stored := sameMode_setC r
    exact ⟨(stored _).emulation, (stored _).memory8, (stored _).index8⟩
  case sta | stx | sty | stz | jsr | jsl | rts | rtl => trivial
  case pha | phx | phy | phb | phd | phk | php | pea | pei | per => trivial
  -- What is left sets registers and flags that are not these three.
  all_goals first
    | exact fun _ => ⟨rfl, rfl, rfl⟩
    | exact fun _ _ => ⟨rfl, rfl, rfl⟩

/-- The widths behind an instruction of a program that stays in its mode. -/
def widthsAfter (r : Registers) (record : Record) : Widths :=
  if r.emulation then r.widths else r.widths.after record

/-- In emulation mode there is one choice of widths. -/
theorem widths_of_emulation {r : Registers} (h : r.emulation = true) : r.widths = {} := by
  unfold widths memoryWidth indexWidth
  rw [h]
  rfl

/-- No instruction but `REP` and `SEP` is expected to change the widths. -/
theorem widthsAfter_of_ne {r : Registers} {record : Record}
    (rep : record.instruction.opcode ≠ .rep) (sep : record.instruction.opcode ≠ .sep) :
    r.widthsAfter record = r.widths := by
  unfold widthsAfter Widths.after
  dsimp only
  split
  · rfl
  · split
    · next same => exact absurd same rep
    · next same => exact absurd same sep
    · rfl

variable {record : Record}

/-- In emulation mode the widths behind a record are those before it. -/
theorem widths_eq_widthsAfter_of_emulation {r s : Registers} (h : r.emulation = true)
    (same : s.emulation = r.emulation) : s.widths = r.widthsAfter record := by
  rw [widthsAfter, if_pos h, widths_of_emulation h, widths_of_emulation (same.trans h)]

/-- `REP` widens the registers whose flags it clears, in native mode. -/
theorem widths_clearStatusBits (r : Registers) (h : record.instruction.opcode = .rep) :
    (r.clearStatusBits (Address.low record.operands.first)).widths = r.widthsAfter record := by
  cases emulation : r.emulation with
  | true => exact widths_eq_widthsAfter_of_emulation emulation rfl
  | false =>
    simp [widthsAfter, Widths.after, h, clearStatusBits, emulation, widths, memoryWidth,
      indexWidth, Flags.clear]

/-- `SEP` narrows the registers whose flags it sets. In emulation mode they are narrow already. -/
theorem widths_setStatusBits (r : Registers) (h : record.instruction.opcode = .sep) :
    (r.setStatusBits (Address.low record.operands.first)).widths = r.widthsAfter record := by
  cases emulation : r.emulation with
  | true => exact widths_eq_widthsAfter_of_emulation emulation rfl
  | false =>
    simp [widthsAfter, Widths.after, h, setStatusBits, applyIndexWidth, emulation, widths,
      memoryWidth, indexWidth, Flags.set]

end Registers

namespace Machine

variable {instruction : Instruction} {operands : Operands} {ready executed : Machine}

/-- An instruction that changes the registers by its operand does nothing else. -/
theorem registers_of_execute_operand {change : Registers → UInt8 → Registers}
    (found : instruction.opcode.effect? instruction.mode = some (.operand change))
    (h : execute instruction operands ready = .ok () executed) :
    executed.registers = change ready.registers (Address.low operands.first) := by
  have own : instruction.opcode ≠ .wdm := by
    intro wdm
    rw [wdm] at found
    cases found
  simp only [execute, if_neg own, Instruction.execute, found, Effect.perform, onCore,
    Exec.alter] at h
  cases h
  rfl

/-- A stand-in for an instruction is never executed. -/
theorem isValid_of_execute (h : execute instruction operands ready = .ok () executed) :
    instruction.isValid = true := by
  rw [Instruction.isValid, bne_iff_ne]
  intro invalid
  simp only [execute, invalid, reduceCtorEq, if_false, Instruction.execute, Opcode.effect?,
    onCore] at h
  cases h

/-- A step of a program that stays in its mode leaves the widths that its record says. -/
theorem widths_of_step {table : DispatchTable} {machine next : Machine} {record : Record}
    (h : step table machine = .ok record next)
    (stays : record.instruction.opcode ∉ [Opcode.xce, .plp, .rti]) :
    next.registers.emulation = machine.registers.emulation ∧
      next.registers.widths = machine.registers.widthsAfter record := by
  obtain ⟨-, executed, hexecuted, rfl⟩ := exists_executed_of_step h
  let ready := machine.about record
  change executed.registers.emulation = ready.registers.emulation ∧
    executed.registers.widths = ready.registers.widthsAfter record
  by_cases rep : record.instruction.opcode = .rep
  · have found : record.instruction.opcode.effect? record.instruction.mode =
        some (.operand Registers.clearStatusBits) := by
      rw [rep]
      rfl
    rw [registers_of_execute_operand found hexecuted]
    exact ⟨rfl, Registers.widths_clearStatusBits _ rep⟩
  · by_cases sep : record.instruction.opcode = .sep
    · have found : record.instruction.opcode.effect? record.instruction.mode =
          some (.operand Registers.setStatusBits) := by
        rw [sep]
        rfl
      rw [registers_of_execute_operand found hexecuted]
      exact ⟨rfl, Registers.widths_setStatusBits _ sep⟩
    · have same := within_execute_of_effect Registers.frame_sameMode
        (fun _ found => Registers.sameMode_effect? _ rep sep stays found) record.operands ready
      rw [hexecuted] at same
      exact ⟨same.emulation, same.widths_eq.trans (Registers.widthsAfter_of_ne rep sep).symm⟩

end Machine

end W65C816
