import W65C816.Proofs.Execution.Frame
import W65C816.Proofs.Registers.WellFormed

/-!
# Instructions keep the registers well-formed

Keeping the registers well-formed is a law: the effect of every operation in every mode obeys it.
So no instruction, with whatever operands, on whatever memory, and however far it comes before a
fault ends it, leaves registers that are not well-formed.
-/

set_option autoImplicit false

namespace W65C816

open Addressing

/-- Well-formed registers lead to well-formed registers. -/
def Registers.KeepsForm (r s : Registers) : Prop :=
  r.WellFormed → s.WellFormed

namespace Effect

open Registers

/-- A replacement in place keeps the form when the change of the registers that it comes with
does. -/
theorem within_replace {result : Registers → UInt16 → UInt16 × Registers}
    (h : ∀ r old, r.WellFormed → (result r old).2.WellFormed) :
    (Effect.replace result).Within KeepsForm := by
  refine ⟨fun r wf => ?_, fun r old wf => h r old wf⟩
  exact (h r r.accumulator wf).setAccumulator _

/-- A conditional jump keeps the form when the jump does. -/
theorem within_branch (condition : Flags → Bool) :
    (Effect.branch condition).Within KeepsForm :=
  fun r _ wf => wf.program r.pb _

/-- A change of flags that leaves the widths alone keeps the form. -/
theorem within_flags {change : Flags → Flags}
    (hmemory : ∀ flags, (change flags).memory8 = flags.memory8)
    (hindex : ∀ flags, (change flags).index8 = flags.index8) :
    (Effect.flags change).Within KeepsForm :=
  fun r wf => wf.flags (hmemory r.status) (hindex r.status)

/-- Each operation, in each mode, has an effect that keeps the form. -/
theorem within_effect? (mode : Mode) (opcode : Opcode) {effect : Effect}
    (h : opcode.effect? mode = some effect) : effect.Within KeepsForm := by
  cases opcode <;> simp only [Opcode.effect?, Option.some.injEq, reduceCtorEq] at h <;> subst h
  case adc => exact fun _ value wf => wf.add value
  case sbc => exact fun _ value wf => wf.subtract value
  case and | eor | ora => exact fun _ _ wf => wf.loadAccumulator _
  case bit =>
    by_cases constant : mode = .immediate
    · simp only [if_pos constant]
      exact fun _ value wf => wf.testZero value
    · simp only [if_neg constant]
      exact fun _ value wf => wf.testBits value
  case cmp | cpx | cpy => exact fun _ _ wf => wf.compare _ _ _
  case asl | lsr | rol | ror => exact within_replace fun _ _ wf => (wf.setCarry _).result _
  case inc | dec => exact within_replace fun _ _ wf => wf.result _
  case tsb | trb => exact within_replace fun _ _ wf => wf.testZero _
  case inx | dex => exact fun _ wf => wf.loadX _
  case iny | dey => exact fun _ wf => wf.loadY _
  case lda => exact fun _ value wf => wf.loadAccumulator value
  case ldx => exact fun _ value wf => wf.loadX value
  case ldy => exact fun _ value wf => wf.loadY value
  case sta | stx | sty | stz => trivial
  case bcc | bcs | bne | beq | bpl | bmi | bvc | bvs | bra | brl | jmp => exact within_branch _
  case jml => exact fun _ _ wf => wf.program _ _
  case jsr | jsl | rts | rtl => trivial
  case rti => exact fun _ value wf => wf.setStatusByte value
  case brk | cop => exact ⟨fun _ wf => wf.withBreakFlag _, fun _ wf => wf.flags rfl rfl⟩
  case pha | phx | phy | phb | phd | phk | php | pea | pei | per => trivial
  case pla => exact fun _ value wf => wf.loadAccumulator value
  case plx => exact fun _ value wf => wf.loadX value
  case ply => exact fun _ value wf => wf.loadY value
  case plb => exact fun _ _ wf => (wf.dataBank _).setNZ _ _
  case pld => exact fun _ _ wf => (wf.directPage _).setNZ _ _
  case plp => exact fun _ _ wf => wf.setStatusByte _
  case clc | sec | cld | sed | cli | sei | clv =>
    exact within_flags (fun _ => rfl) (fun _ => rfl)
  case rep => exact fun _ mask wf => wf.clearStatusBits mask
  case sep => exact fun _ mask wf => wf.setStatusBits mask
  case xce => exact fun _ wf => wf.exchangeCarryEmulation
  case tax | tyx | tsx => exact fun _ wf => wf.loadX _
  case tay | txy => exact fun _ wf => wf.loadY _
  case txa | tya => exact fun _ wf => wf.loadAccumulator _
  case txs | tcs => exact fun _ wf => wf.stackPointer _
  case tsc | tdc => exact fun _ wf => (wf.setC _).setNZ _ _
  case tcd => exact fun _ wf => (wf.directPage _).setNZ _ _
  case xba => exact fun _ wf => wf.exchangeBytes
  case mvn | mvp => exact fun _ destination wf => wf.afterMove _ destination
  case stp => exact fun r wf => wf.control r.waiting true r.instructions
  case wai => exact fun r wf => wf.control true r.stopped r.instructions
  case nop | wdm => exact fun _ wf => wf

end Effect

/-- Keeping the form is a law, of runs too. -/
theorem Registers.law_keepsForm : Registers.RunLaw Registers.KeepsForm where
  refl := fun _ wf => wf
  trans := fun h h' wf => h' (h wf)
  stack := fun _ sp wf => wf.stackPointer sp
  program := fun _ pb pc wf => wf.program pb pc
  effects := fun mode opcode _ found => Effect.within_effect? mode opcode found
  control := fun _ waiting stopped instructions wf => wf.control waiting stopped instructions

end W65C816
