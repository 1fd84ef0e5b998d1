import W65C816.Execution.Run
import W65C816.Proofs.Execution.Frame

/-!
# The machine under a law

A law of single instructions holds of executing an instruction on the machine, where hooks may be
called that see the registers and cannot change them. A law of runs holds of a whole step, of a turn
and of any number of turns, by induction on how many there are.
-/

set_option autoImplicit false

namespace W65C816

namespace Machine

variable {relation : Registers → Registers → Prop} {α β : Type}

/-- The registers of the machine that the action leaves behind are related to those of the machine
that it began with. -/
abbrev Within (relation : Registers → Registers → Prop) (action : MachineAction α) : Prop :=
  Action.Within (fun machine next : Machine => relation machine.registers next.registers) action

/-- An action and what follows stay within a law if both do. -/
theorem Within.bind (law : Registers.Law relation) {first : MachineAction α}
    {rest : α → MachineAction β} (hfirst : Within relation first)
    (hrest : ∀ value, Within relation (rest value)) : Within relation (first >>= rest) := by
  refine Action.Within.bind ?_ hfirst hrest
  intro machine next last h h'
  exact law.trans h h'

/-- An action stays within a law on the machine if it does on the core. -/
theorem within_onCore {action : Exec α} (h : Exec.Within relation action) :
    Within relation (onCore action) := by
  rintro ⟨core, hooks, control, log, trace⟩
  have hcore := h core
  cases found : action core <;> rw [found] at hcore <;> simp only [onCore, found] <;> exact hcore

/-- A hook is shown the registers and cannot change them. -/
theorem within_invoke (refl : ∀ r, relation r r) (index : Nat) (sighting : Sighting) :
    Within relation (invoke index sighting) := by
  rintro ⟨core, hooks, control, log, trace⟩
  have same := refl core.registers
  cases found : hooks.get? index with
  | none =>
    simp only [invoke, found]
    exact same
  | some hook =>
    by_cases panics : (hook.react (hook.calls + 1) sighting).panic = true
    · simp only [invoke, found, respond, if_pos panics]
      exact same
    · simp only [invoke, found, respond, if_neg panics]
      exact same

/-- A hook does not change the registers. -/
theorem within_callHook (refl : ∀ r, relation r r) (instruction : Instruction)
    (slot : UInt8) : Within relation (callHook instruction slot) := by
  intro machine
  rw [callHook_eq, Action.bind_apply]
  split
  · exact refl machine.registers
  · have h := within_invoke refl (slot.toNat - 1)
      { slot, instruction, registers := machine.registers } machine
    split <;> next found => rw [found] at h; exact h

/-- Executing an instruction on the machine is within a frame that its effect is within, also when
it calls a hook. -/
theorem within_execute_of_effect (frame : Registers.Frame relation) {instruction : Instruction}
    (h : ∀ effect, instruction.opcode.effect? instruction.mode = some effect →
      effect.Within relation) (operands : Operands) :
    Within relation (execute instruction operands) := by
  unfold execute
  split
  · exact within_callHook frame.refl _ _
  · exact within_onCore (Instruction.within_execute_of_effect frame h operands)

/-- Executing an instruction on the machine, the ones that call hooks included. -/
theorem within_execute (law : Registers.Law relation) (instruction : Instruction)
    (operands : Operands) : Within relation (execute instruction operands) :=
  within_execute_of_effect law.toFrame (fun _ found => law.effects _ _ found) operands

/-- One instruction, from reading it to counting it. -/
theorem within_step (law : Registers.RunLaw relation) (table : DispatchTable) :
    Within relation (step table) := by
  refine Within.bind law.toLaw (within_onCore (Exec.within_ask law.toFrame _)) fun record => ?_
  refine Within.bind law.toLaw (fun machine => law.refl machine.registers) fun _ => ?_
  refine Within.bind law.toLaw (within_onCore (Exec.within_alter fun r => ?_)) fun _ => ?_
  · exact law.counter r _
  · refine Within.bind law.toLaw (within_execute law.toLaw _ _) fun _ => ?_
    refine Within.bind law.toLaw (within_onCore (Exec.within_alter fun r => ?_)) fun _ => ?_
    · exact law.control r r.waiting r.stopped _
    · exact fun machine => law.refl machine.registers

/-- A turn of a run stays within the laws of runs. -/
theorem within_turn (law : Registers.RunLaw relation) (table : DispatchTable) :
    Within relation (turn table) := by
  have ends : Within relation askHalt := fun machine => law.refl machine.registers
  intro machine
  rw [turn_eq]
  split
  · exact law.refl machine.registers
  · exact (within_step law table).bind law.toLaw (fun _ => ends) machine

/-- A run of any number of turns, whatever ends it. -/
theorem within_turns (law : Registers.RunLaw relation) (table : DispatchTable)
    (requests : Nat → Bool) (first limit : Nat) :
    Within relation (turns table requests first limit) := by
  have same (machine : Machine) : relation machine.registers machine.registers :=
    law.refl machine.registers
  induction limit generalizing first with
  | zero => exact same
  | succ limit ih =>
    rw [turns_succ_eq_bind]
    refine Within.bind law.toLaw same fun _ => ?_
    refine Within.bind law.toLaw (within_turn law table) fun reason => ?_
    cases reason with
    | none => exact ih (first + 1)
    | some reason => exact same

end Machine

end W65C816
