import W65C816.Catalog.Standard
import W65C816.Proofs.Execution.WellFormed
import W65C816.Proofs.Interpreter.Requests

/-!
# Registers stay well-formed

The registers after power-on are well-formed, and nothing that an interpreter is asked to do changes
that: not an instruction of any table with any operands, not a fault halfway through one, and not a
session of any length, seen after any of its steps.
-/

set_option autoImplicit false

namespace W65C816

/-- The registers are well-formed after power-on, and stay so when an instruction is executed, when
the machine takes a step, and in every session, whether the steps succeed or fail. A session sees a
run after each of its turns, because the run may be cut off at any number of them. -/
theorem registers_wellFormed_throughout :
    ({} : Registers).WellFormed ∧
      (∀ (instruction : Instruction) (operands : Operands) (machine : Machine),
        machine.registers.WellFormed →
          (Action.stateAfter
            (Machine.execute instruction operands machine)).registers.WellFormed) ∧
      (∀ (table : DispatchTable) (machine : Machine), machine.registers.WellFormed →
        (Action.stateAfter (Machine.step table machine)).registers.WellFormed) ∧
      ∀ (interpreter : Interpreter), interpreter.registers.WellFormed →
        ∀ requests : List Request,
          (Request.performAll requests interpreter).registers.WellFormed := by
  refine ⟨Registers.wellFormed_default, ?_, ?_, ?_⟩
  · intro instruction operands machine
    exact Machine.within_execute Registers.law_keepsForm.toLaw instruction operands machine
  · intro table machine
    exact Machine.within_step Registers.law_keepsForm table machine
  · intro interpreter wf requests
    exact Request.relation_performAll Registers.law_keepsForm requests interpreter wf

/-- A session on the smallest memory: a step into a program that pulls the status, then a run that
is cut off after three turns, then a step at another address. -/
theorem registers_wellFormed_after_session :
    let bus := Bus.flat (.whole (Memory.least.setAll 0 [0xFB, 0x28, 0x9A]))
    let interpreter := Interpreter.create ⟨{}, bus⟩ .standard {}
    interpreter.registers.WellFormed ∧
      (Request.performAll
        [.runOnce none, .run none (fun _ => false) 3, .runOnce (some 0x1FF)]
        interpreter).registers.WellFormed := by
  intro bus interpreter
  have wf : interpreter.registers.WellFormed := Registers.wellFormed_default
  exact ⟨wf, registers_wellFormed_throughout.2.2.2 interpreter wf _⟩

end W65C816
