import W65C816.Proofs.Execution.Widths
import W65C816.Proofs.Registers.Wrapping

/-!
# The hidden byte of the accumulator

The sixteen bits of the accumulator are `Registers.c` in either mode, though they are kept in other
places. What changes the mode or the widths keeps all of them, which is a frame,
`Registers.SameC`; a run of such changes in any order keeps them too, by induction on the run. While
the accumulator is one byte wide the other instructions keep its high byte, with five exceptions
that work on all sixteen bits: `Registers.keepsHighByte_effect?`. Wherever an instruction fails, it
has kept as much.
-/

set_option autoImplicit false

namespace W65C816

open Addressing

namespace Registers

/-! ## All sixteen bits -/

/-- The sixteen bits of the accumulator are the same. -/
def SameC (r s : Registers) : Prop :=
  s.c = r.c

/-- The program counter and the bank are no part of the accumulator. -/
theorem frame_sameC : Frame SameC where
  refl := fun _ => rfl
  trans := fun h h' => h'.trans h
  stack := fun _ _ => rfl
  program := fun _ _ _ => rfl

/-- Native mode puts the two bytes together. -/
theorem c_enterNative (r : Registers) : r.enterNative.c = r.c := rfl

/-- Emulation mode takes the two bytes apart. -/
theorem c_enterEmulation (r : Registers) : r.enterEmulation.c = r.c := by
  cases mode : r.emulation with
  | true => simp [c, enterEmulation, mode]
  | false => simp [c, enterEmulation, mode, Word.low_dropHigh]

/-- Exchanging carry and emulation keeps all 16 bits of the accumulator. -/
theorem c_exchangeCarryEmulation (r : Registers) : r.exchangeCarryEmulation.c = r.c := by
  unfold exchangeCarryEmulation
  split
  · exact c_enterNative r
  · exact c_enterEmulation r
  · rfl

/-- Setting the status keeps all 16 bits of the accumulator. -/
theorem c_setStatusByte (r : Registers) (value : UInt8) : (r.setStatusByte value).c = r.c := by
  cases mode : r.emulation <;> simp [setStatusByte, applyIndexWidth, c, mode]

/-- The operations that change the mode, the widths or the carry keep all of the accumulator. -/
theorem sameC_effect? (mode : Mode) {opcode : Opcode}
    (listed : opcode ∈ [Opcode.xce, .clc, .sec, .rep, .sep, .plp, .rti]) {effect : Effect}
    (h : opcode.effect? mode = some effect) : effect.Within SameC := by
  simp only [List.mem_cons, List.not_mem_nil, or_false] at listed
  rcases listed with rfl | rfl | rfl | rfl | rfl | rfl | rfl <;> cases h
  · exact c_exchangeCarryEmulation
  · exact fun _ => rfl
  · exact fun _ => rfl
  · exact fun _ _ => rfl
  · exact fun _ _ => rfl
  · exact fun r value => c_setStatusByte r _
  · exact c_setStatusByte

/-! ## The high byte -/

/-- If the accumulator is one byte wide, its high byte is the same. -/
def SameHighByte (r s : Registers) : Prop :=
  r.memoryWidth = .byte → Word.high s.c = Word.high r.c

/-- With the widths, the high byte is kept by one change after another. -/
def KeepsHighByte (r s : Registers) : Prop :=
  SameMode r s ∧ SameHighByte r s

/-- The program counter and the bank are neither part of the accumulator nor of the mode. -/
theorem frame_keepsHighByte : Frame KeepsHighByte where
  refl := fun r => ⟨frame_sameMode.refl r, fun _ => rfl⟩
  trans := by
    rintro r s t ⟨mode, high⟩ ⟨mode', high'⟩
    refine ⟨frame_sameMode.trans mode mode', fun narrow => ?_⟩
    have width : s.memoryWidth = r.memoryWidth := congrArg Widths.memory mode.widths_eq
    exact (high' (width.trans narrow)).trans (high narrow)
  stack := fun r sp => ⟨frame_sameMode.stack r sp, fun _ => rfl⟩
  program := fun r pb pc => ⟨frame_sameMode.program r pb pc, fun _ => rfl⟩

variable {r s : Registers}

/-- An accumulator of one byte is stored beside the high byte. -/
theorem sameHighByte_setAccumulator (same : s.c = r.c) (width : s.memoryWidth = r.memoryWidth)
    (value : UInt16) : SameHighByte r (s.setAccumulator value) := by
  intro narrow
  rw [← same]
  simp only [setAccumulator, c, width.trans narrow, Width.replace]
  split
  · rw [Word.high_join, Word.high_join]
  · exact Word.high_join _ _

/-- Apart from those that change the widths, and from those that work on all sixteen bits, each
operation in each addressing mode keeps the high byte of an accumulator of one byte. -/
theorem sameHighByte_effect? (mode : Mode) {opcode : Opcode}
    (other : opcode ∉ [Opcode.xce, .plp, .rti, .xba, .tsc, .tdc, .mvn, .mvp]) {effect : Effect}
    (h : opcode.effect? mode = some effect) : effect.Within SameHighByte := by
  cases opcode <;> simp only [Opcode.effect?, Option.some.injEq, reduceCtorEq] at h <;> subst h
  case xce | plp | rti | xba | tsc | tdc | mvn | mvp => exact absurd (by decide) other
  case adc | sbc | and | eor | ora | lda | pla =>
    exact fun r value => sameHighByte_setAccumulator rfl rfl _
  case txa | tya => exact fun r => sameHighByte_setAccumulator rfl rfl _
  case asl | lsr | rol | ror | inc | dec | tsb | trb =>
    exact ⟨fun r => sameHighByte_setAccumulator rfl rfl _, fun r old _ => rfl⟩
  case bit => split <;> exact fun r value _ => rfl
  case brk | cop => exact ⟨fun r _ => rfl, fun r _ => rfl⟩
  case sta | stx | sty | stz | jsr | jsl | rts | rtl => trivial
  case pha | phx | phy | phb | phd | phk | php | pea | pei | per => trivial
  -- What is left does not touch the accumulator.
  all_goals first
    | exact fun r _ => rfl
    | exact fun r value _ => rfl

end Registers

namespace Machine

variable {instruction : Instruction}

/-- Changing the mode, the widths or the carry keeps all of the accumulator, whatever becomes of
it. -/
theorem sameC_execute
    (listed : instruction.opcode ∈ [Opcode.xce, .clc, .sec, .rep, .sep, .plp, .rti])
    (operands : Operands) : Within Registers.SameC (execute instruction operands) :=
  within_execute_of_effect Registers.frame_sameC
    (fun _ found => Registers.sameC_effect? instruction.mode listed found) operands

/-- Apart from the instructions that work on all sixteen bits, an instruction keeps the high byte of
an accumulator of one byte, whatever becomes of it. -/
theorem sameHighByte_execute
    (other : instruction.opcode ∉ [Opcode.xba, .tsc, .tdc, .mvn, .mvp]) (operands : Operands) :
    Within Registers.SameHighByte (execute instruction operands) := by
  intro machine
  by_cases switching : instruction.opcode ∈ [Opcode.xce, .clc, .sec, .rep, .sep, .plp, .rti]
  · intro _
    exact congrArg Word.high (sameC_execute switching operands machine)
  · simp only [List.mem_cons, List.not_mem_nil, or_false, not_or] at switching other
    obtain ⟨xce, -, -, rep, sep, plp, rti⟩ := switching
    have kept := within_execute_of_effect Registers.frame_keepsHighByte
      (fun effect found => (Registers.sameMode_effect? instruction.mode rep sep
        (by simp [xce, plp, rti]) found).and
          (Registers.sameHighByte_effect? instruction.mode
            (by simp [xce, plp, rti, other]) found)) operands machine
    exact kept.2

end Machine

/-! ## Changes of the mode and the widths -/

/-- Something that changes the mode, the widths or the carry: an instruction, or entering a mode
directly. -/
inductive ModeSwitch where
  | execute (instruction : Instruction)
    (listed : instruction.opcode ∈ [Opcode.xce, .clc, .sec, .rep, .sep, .plp]) (operands : Operands)
  | enterNative
  | enterEmulation

namespace ModeSwitch

/-- Carries out a change. The pull of a status may fail. -/
def perform : ModeSwitch → Exec Unit
  | .execute instruction _ operands => instruction.execute operands
  | .enterNative => Exec.alter Registers.enterNative
  | .enterEmulation => Exec.alter Registers.enterEmulation

/-- The core that one change after another leaves behind, those that fail included. -/
def performAll : List ModeSwitch → Core → Core
  | [], core => core
  | switch :: rest, core => performAll rest (Action.stateAfter (switch.perform core))

/-- A switch of mode or width keeps all 16 bits of the accumulator. -/
theorem sameC_perform (switch : ModeSwitch) : Exec.Within Registers.SameC switch.perform := by
  cases switch with
  | execute instruction listed operands =>
    have listed : instruction.opcode ∈ [Opcode.xce, .clc, .sec, .rep, .sep, .plp, .rti] := by
      simp only [List.mem_cons, List.not_mem_nil, or_false] at listed ⊢
      grind
    exact Instruction.within_execute_of_effect Registers.frame_sameC
      (fun _ found => Registers.sameC_effect? _ listed found) operands
  | enterNative => exact fun core => Registers.c_enterNative core.registers
  | enterEmulation => exact fun core => Registers.c_enterEmulation core.registers

/-- Any number of switches keeps all 16 bits of the accumulator. -/
theorem c_performAll (switches : List ModeSwitch) (core : Core) :
    (performAll switches core).registers.c = core.registers.c := by
  induction switches generalizing core with
  | nil => rfl
  | cons switch rest ih => exact (ih _).trans (switch.sameC_perform core)

end ModeSwitch

/-- Where the sixteen bits of the accumulator are kept: in native mode in `a`, and in emulation mode
with the high byte in `b`. -/
def Registers.KeepsC (r : Registers) (value : UInt16) : Prop :=
  if r.emulation then r.b = Word.high value ∧ Word.low r.a = Word.low value else r.a = value

/-- Registers keep the accumulator that they have. -/
theorem Registers.keepsC_c (r : Registers) : r.KeepsC r.c := by
  unfold KeepsC c
  cases r.emulation <;> simp

/-- The hidden byte of the accumulator survives. Where the accumulator is one byte wide, every
instruction but five keeps its high byte, whether it succeeds or fails. Any row of changes of the
mode, the widths and the carry keeps all sixteen bits, and moves them to where the mode that it
leaves has them. -/
theorem hidden_byte_survives :
    (∀ (instruction : Instruction) (operands : Operands) (machine : Machine),
      machine.registers.memoryWidth = .byte →
      instruction.opcode ∉ [Opcode.xba, .tsc, .tdc, .mvn, .mvp] →
      Word.high (Action.stateAfter (Machine.execute instruction operands machine)).registers.c =
        Word.high machine.registers.c) ∧
    ∀ (switches : List ModeSwitch) (core : Core),
      (ModeSwitch.performAll switches core).registers.c = core.registers.c ∧
        (ModeSwitch.performAll switches core).registers.KeepsC core.registers.c := by
  refine ⟨fun instruction operands machine narrow other =>
    Machine.sameHighByte_execute other operands machine narrow, fun switches core => ?_⟩
  have same := ModeSwitch.c_performAll switches core
  refine ⟨same, ?_⟩
  rw [← same]
  exact Registers.keepsC_c _

/-- In native mode a byte is added, with a carry out of it, and the high byte stays. Emulation mode
is entered twice and left by an exchange, and all sixteen bits are kept. -/
theorem hidden_byte_survives_carry :
    let core : Core := ⟨{ a := 0x12FF, emulation := false, status := { memory8 := true } },
      .flat (View.whole Memory.least)⟩
    let add : Instruction := { code := 0x69, opcode := .adc, mode := .immediate }
    let clear : Instruction := { code := 0x18, opcode := .clc, mode := .implied }
    let exchange : Instruction := { code := 0xFB, opcode := .xce, mode := .implied }
    let added := Action.stateAfter (Machine.execute add { first := 1, length := 1 } { core })
    core.registers.memoryWidth = .byte ∧ Word.high added.registers.c = 0x12 ∧
      (ModeSwitch.performAll [.enterEmulation, .enterEmulation,
        .execute clear (by decide) {}, .execute exchange (by decide) {}] core).registers.c =
          0x12FF := by
  intro core add clear exchange added
  obtain ⟨high, whole⟩ := hidden_byte_survives
  have kept := high add { first := 1, length := 1 } { core } rfl (by decide)
  exact ⟨rfl, kept.trans (by decide), (whole _ core).1⟩

end W65C816
