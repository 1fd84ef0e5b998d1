import W65C816.Proofs.Execution.Widths
import W65C816.Proofs.Execution.WellFormed

/-!
# Operations outside of instructions

Whoever holds a processor may change its mode, its status and its registers directly, and push and
pull, in any order and in either mode. Instructions enter a mode only when it changes; a direct
operation may enter the mode that the processor is in already.

Every such operation keeps the registers well-formed, with one exception. Entering native mode from
native mode makes the index registers one byte wide and leaves their high bytes where they are, so
the form is lost exactly when there was something in them: `wellFormed_throughout_iff`.
-/

set_option autoImplicit false

namespace W65C816

/-- A word without a high byte is a byte. -/
theorem Word.dropHigh_eq_iff (value : UInt16) : Word.dropHigh value = value ↔ value ≤ 0xFF := by
  rw [← UInt16.toNat_inj, UInt16.le_iff_toNat_le, Word.dropHigh, UInt8.toNat_toUInt16,
    Word.toNat_low]
  simp only [UInt16.reduceToNat]
  omega

namespace Registers

/-- Both index registers hold no more than a byte. -/
def IndexFits (r : Registers) : Prop :=
  r.x ≤ 0xFF ∧ r.y ≤ 0xFF

/-- The high bytes of both index registers are gone. -/
def DropsIndex (r s : Registers) : Prop :=
  s.x = Word.dropHigh r.x ∧ s.y = Word.dropHigh r.y

variable {r : Registers}

/-- The index registers are bytes in emulation mode, and else where their flag says so. -/
theorem indexWidth_eq_byte_iff : r.indexWidth = .byte ↔
    r.emulation = true ∨ r.status.index8 = true := by
  unfold indexWidth Width.ofFlag
  rw [← Bool.or_eq_true]
  split <;> simp_all

/-- High bytes that are empty already need not be dropped. -/
theorem dropsIndex_self_iff : DropsIndex r r ↔ r.IndexFits := by
  rw [DropsIndex, IndexFits, eq_comm, Word.dropHigh_eq_iff, eq_comm (a := r.y),
    Word.dropHigh_eq_iff]

/-- Index registers that are cut to the width of a byte lose their high bytes. -/
theorem dropsIndex_applyIndexWidth (narrow : r.applyIndexWidth.indexWidth = .byte) :
    DropsIndex r r.applyIndexWidth := by
  have width : r.indexWidth = .byte := narrow
  simp only [DropsIndex, applyIndexWidth, xIndex, yIndex, index, width, Width.narrow, and_self]

namespace WellFormed

/-- Native mode may be entered from either mode as long as the index registers fit in a byte. -/
theorem enterNative_of_indexFits (fits : r.IndexFits) : r.enterNative.WellFormed where
  narrow := fun native => absurd native Bool.false_ne_true
  accumulator_le := fun native => absurd native Bool.false_ne_true
  index_le := fun _ => fits
  stack := fun native => absurd native Bool.false_ne_true

/-- Emulation mode may be entered from either mode. -/
theorem enterEmulation_of_wellFormed (wf : r.WellFormed) : r.enterEmulation.WellFormed := by
  cases mode : r.emulation with
  | false => exact enterEmulation mode
  | true =>
    refine ⟨fun _ => ⟨rfl, rfl⟩, fun _ => ?_, fun _ => ?_, fun _ => ?_⟩
    · simp only [Registers.enterEmulation, mode, if_true]
      exact wf.accumulator_le mode
    · exact ⟨Width.dropHigh_le r.x, Width.dropHigh_le r.y⟩
    · exact (by decide : 0x0100 ≤ stackPage ∧ stackPage ≤ 0x01FF)

end WellFormed

end Registers

/-- Something that is done to a processor directly, and not by an instruction. -/
inductive DirectOperation where
  | enterNative
  | enterEmulation
  | exchangeCarryEmulation
  | setStatusByte (value : UInt8)
  | clearStatusBits (mask : UInt8)
  | setStatusBits (mask : UInt8)
  | setC (value : UInt16)
  | setAccumulator (value : UInt16)
  | setX (value : UInt16)
  | setY (value : UInt16)
  | push8 (value : UInt8)
  | push16 (value : UInt16)
  | pull8
  | pull16

namespace DirectOperation

open Registers

/-- Carries out an operation. A push or a pull may fail halfway, and what it did stays done. -/
def perform : DirectOperation → Exec Unit
  | .enterNative => Exec.alter Registers.enterNative
  | .enterEmulation => Exec.alter Registers.enterEmulation
  | .exchangeCarryEmulation => Exec.alter Registers.exchangeCarryEmulation
  | .setStatusByte value => Exec.alter fun r => r.setStatusByte value
  | .clearStatusBits mask => Exec.alter fun r => r.clearStatusBits mask
  | .setStatusBits mask => Exec.alter fun r => r.setStatusBits mask
  | .setC value => Exec.alter fun r => r.setC value
  | .setAccumulator value => Exec.alter fun r => r.setAccumulator value
  | .setX value => Exec.alter fun r => r.setX value
  | .setY value => Exec.alter fun r => r.setY value
  | .push8 value => Exec.push8 value
  | .push16 value => Exec.push16 value
  | .pull8 => Exec.pull8 >>= fun _ => pure ()
  | .pull16 => Exec.pull16 >>= fun _ => pure ()

/-- The core that an operation leaves behind. -/
def after (operation : DirectOperation) (core : Core) : Core :=
  Action.stateAfter (operation.perform core)

/-- The core behind operations in a row. -/
def performAll (operations : List DirectOperation) (core : Core) : Core :=
  operations.foldl (fun core operation => operation.after core) core

/-- No operations change nothing. -/
@[simp] theorem performAll_nil (core : Core) : performAll [] core = core := rfl

/-- The last operation comes after the others. -/
@[simp] theorem performAll_snoc (operations : List DirectOperation) (operation : DirectOperation)
    (core : Core) :
    performAll (operations ++ [operation]) core = operation.after (performAll operations core) := by
  rw [performAll, List.foldl_append]
  rfl

variable {core : Core}

/-- Pushing and pulling move the stack pointer alone, within any frame. -/
theorem within_stack {relation : Registers → Registers → Prop} (frame : Frame relation) :
    (∀ value, Exec.Within relation (push8 value).perform) ∧
      (∀ value, Exec.Within relation (push16 value).perform) ∧
      Exec.Within relation pull8.perform ∧ Exec.Within relation pull16.perform :=
  ⟨Exec.within_push8 frame, Exec.within_push16 frame,
    Exec.Within.bind frame (Exec.within_pull8 frame) fun _ => Exec.within_pure frame (),
    Exec.Within.bind frame (Exec.within_pull16 frame) fun _ => Exec.within_pure frame ()⟩

/-- Each operation keeps the registers well-formed, unless it enters native mode with something in
the high bytes of the index registers. -/
theorem wellFormed_after (wf : core.registers.WellFormed) (operation : DirectOperation)
    (fits : operation = .enterNative → core.registers.IndexFits) :
    (operation.after core).registers.WellFormed := by
  obtain ⟨push8, push16, pull8, pull16⟩ := within_stack law_keepsForm.toFrame
  cases operation with
  | enterNative => exact WellFormed.enterNative_of_indexFits (fits rfl)
  | enterEmulation => exact wf.enterEmulation_of_wellFormed
  | exchangeCarryEmulation => exact wf.exchangeCarryEmulation
  | setStatusByte value => exact wf.setStatusByte value
  | clearStatusBits mask => exact wf.clearStatusBits mask
  | setStatusBits mask => exact wf.setStatusBits mask
  | setC value => exact wf.setC value
  | setAccumulator value => exact wf.setAccumulator value
  | setX value => exact wf.setX value
  | setY value => exact wf.setY value
  | push8 value => exact push8 value core wf
  | push16 value => exact push16 value core wf
  | pull8 => exact pull8 core wf
  | pull16 => exact pull16 core wf

/-- An operation that makes the index registers one byte wide drops their high bytes, unless it
enters native mode. What leaves the mode and the flags alone does not come into question. -/
theorem dropsIndex_after (operation : DirectOperation) (other : operation ≠ .enterNative)
    (wide : core.registers.indexWidth = .word)
    (narrow : (operation.after core).registers.indexWidth = .byte) :
    DropsIndex core.registers (operation.after core).registers := by
  have switches (same : SameMode core.registers (operation.after core).registers) :
      DropsIndex core.registers (operation.after core).registers := by
    have kept := congrArg Widths.index same.widths_eq
    cases (narrow.symm.trans kept).trans wide
  obtain ⟨push8, push16, pull8, pull16⟩ := within_stack frame_sameMode
  cases operation with
  | enterNative => exact absurd rfl other
  | enterEmulation => exact ⟨rfl, rfl⟩
  | exchangeCarryEmulation =>
    -- Native mode is wide before, so an exchange that changes nothing but the carry is out.
    have native : core.registers.emulation = false := by
      rw [← Bool.not_eq_true]
      intro emulation
      cases wide.symm.trans (indexWidth_eq_byte_iff.mpr (.inl emulation))
    cases carry : core.registers.status.carry with
    | true =>
      have enters : core.registers.exchangeCarryEmulation = core.registers.enterEmulation := by
        simp only [Registers.exchangeCarryEmulation, native, carry]
      change DropsIndex core.registers core.registers.exchangeCarryEmulation
      rw [enters]
      exact ⟨rfl, rfl⟩
    | false =>
      have stays : core.registers.exchangeCarryEmulation = core.registers.setCarry false := by
        simp only [Registers.exchangeCarryEmulation, native, carry]
      refine switches ?_
      change SameMode core.registers core.registers.exchangeCarryEmulation
      rw [stays]
      exact ⟨rfl, rfl, rfl⟩
  | setStatusByte value =>
    change DropsIndex core.registers (core.registers.setStatusByte value)
    have narrow : (core.registers.setStatusByte value).indexWidth = .byte := narrow
    unfold Registers.setStatusByte at narrow ⊢
    dsimp only at narrow ⊢
    split at narrow
    · next emulation =>
      rw [if_pos emulation]
      exact dropsIndex_applyIndexWidth narrow
    · next native =>
      rw [if_neg native]
      exact dropsIndex_applyIndexWidth narrow
  | clearStatusBits mask =>
    -- A width flag that is set behind the operation was set before it.
    have before : core.registers.indexWidth = .byte := by
      rw [indexWidth_eq_byte_iff] at narrow ⊢
      refine narrow.imp id fun set => ?_
      have both : (core.registers.status.index8 && _) = true := set
      exact (Bool.and_eq_true_iff.mp both).1
    cases wide.symm.trans before
  | setStatusBits mask => exact dropsIndex_applyIndexWidth narrow
  | setC value => exact switches (sameMode_setC _ value)
  | setAccumulator value | setX value | setY value => exact switches ⟨rfl, rfl, rfl⟩
  | push8 value => exact switches (push8 value core)
  | push16 value => exact switches (push16 value core)
  | pull8 => exact switches (pull8 core)
  | pull16 => exact switches (pull16 core)

/-- Any number of operations, by induction on them: the form is kept when it is kept each time that
native mode is entered. -/
theorem wellFormed_performAll (operations : List DirectOperation) (wf : core.registers.WellFormed)
    (fits : ∀ early, early ++ [.enterNative] <+: operations →
      (performAll early core).registers.IndexFits) :
    (performAll operations core).registers.WellFormed := by
  induction operations generalizing core with
  | nil => exact wf
  | cons operation rest ih =>
    have first : operation = .enterNative → core.registers.IndexFits := by
      rintro rfl
      exact fits [] ⟨rest, rfl⟩
    refine ih (wellFormed_after wf operation first) fun early enters => ?_
    exact fits (operation :: early) (List.cons_prefix_cons.mpr ⟨rfl, enters⟩)

/-- When the registers stay well-formed under direct operations. Begin with well-formed registers
and carry out any operations, in whatever mode each of them finds the processor. The registers are
well-formed all the way exactly when native mode is entered only with index registers that fit in a
byte, as they always do in emulation mode. And the next operation, if it makes the index registers
one byte wide, drops their high bytes exactly when it does not enter native mode or there is nothing
to drop. -/
theorem wellFormed_throughout_iff (core : Core) (wf : core.registers.WellFormed)
    (operations : List DirectOperation) :
    ((∀ early, early <+: operations → (performAll early core).registers.WellFormed) ↔
        ∀ early, early ++ [.enterNative] <+: operations →
          (performAll early core).registers.IndexFits) ∧
      ∀ operation : DirectOperation,
        let before := performAll operations core
        let next := operation.after before
        before.registers.indexWidth = .word → next.registers.indexWidth = .byte →
          (DropsIndex before.registers next.registers ↔
            (operation = .enterNative → before.registers.IndexFits)) := by
  refine ⟨⟨fun formed early enters => ?_, fun fits early => ?_⟩, ?_⟩
  · -- Behind the entry the index flag is set, and the index registers are what they were.
    have entered := formed _ enters
    rw [performAll_snoc] at entered
    exact entered.index_le rfl
  · exact fun begins => wellFormed_performAll early wf fun earlier enters =>
      fits earlier (enters.trans begins)
  · intro operation before next wide narrow
    by_cases native : operation = .enterNative
    · subst native
      exact dropsIndex_self_iff.trans ⟨fun fits _ => fits, fun fits => fits rfl⟩
    · have drops := dropsIndex_after operation native wide narrow
      exact ⟨fun _ same => absurd same native, fun _ => drops⟩

/-- Operations that leave emulation mode and fill both index registers keep the form. To enter
native mode once more would make the index registers one byte wide and drop nothing. -/
theorem wellFormed_throughout_wide_index :
    let core : Core := ⟨{}, .flat (.whole Memory.least)⟩
    let operations : List DirectOperation :=
      [.enterNative, .clearStatusBits 0x30, .setX 0x1234, .setY 0x5678, .pull16]
    let last := performAll operations core
    core.registers.WellFormed ∧
      (∀ early, early <+: operations → (performAll early core).registers.WellFormed) ∧
      last.registers.indexWidth = .word ∧
      (DirectOperation.enterNative.after last).registers.indexWidth = .byte ∧
      ¬ DropsIndex last.registers (DirectOperation.enterNative.after last).registers := by
  intro core operations
  have wf : core.registers.WellFormed := wellFormed_default
  obtain ⟨formed, drops⟩ := wellFormed_throughout_iff core wf operations
  have wide : (performAll operations core).registers.indexWidth = .word := by decide +kernel
  have filled : ¬ (performAll operations core).registers.x ≤ 0xFF := by decide +kernel
  have early_fits : ∀ early, early ++ [.enterNative] <+: operations →
      (performAll early core).registers.IndexFits := by
    rintro (_ | ⟨first, rest⟩) enters
    · exact ⟨by decide, by decide⟩
    · -- Native mode is entered at the beginning and never again.
      have later := (List.cons_prefix_cons.mp enters).2.subset
        (List.mem_append_right rest (List.mem_singleton_self _))
      simp at later
  have kept := formed.mpr early_fits
  have drops := drops .enterNative
  generalize performAll operations core = last at wide filled drops ⊢
  exact ⟨wf, kept, wide, rfl, fun dropped => filled ((drops wide rfl).mp dropped rfl).1⟩

/-- The form is lost when native mode is entered from native mode with wide index registers. -/
theorem not_wellFormed_throughout :
    ¬ ∀ (core : Core) (operations : List DirectOperation), core.registers.WellFormed →
      (performAll operations core).registers.WellFormed := by
  intro kept
  have lost := kept ⟨{}, .flat (.whole Memory.least)⟩
    [.enterNative, .clearStatusBits 0x30, .setX 0x1234, .setY 0x5678, .enterNative]
    wellFormed_default
  exact absurd (lost.index_le rfl).1 (by decide +kernel)

end DirectOperation

end W65C816
