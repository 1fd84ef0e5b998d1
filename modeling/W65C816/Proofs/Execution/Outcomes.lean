import W65C816.Proofs.Execution.Frame
import W65C816.Proofs.Execution.Steps

/-!
# Outcomes

The ways in which an action on the core is built, as equations: what a question, a change of the
registers and an access to the bus yield, and what it says about them that they succeeded. With
these an action is carried out, or taken apart, one access at a time. A step of the machine that
calls no hook goes as its instruction goes on the core.
-/

set_option autoImplicit false

namespace W65C816

namespace Action

variable {ε σ α β : Type}

/-- A sequence whose first action succeeds goes on with the rest. -/
theorem bind_of_ok {first : EStateM ε σ α} {rest : α → EStateM ε σ β} {state next : σ} {value : α}
    (h : first state = .ok value next) : (first >>= rest) state = rest value next := by
  rw [bind_apply, h]

/-- A question is answered exactly if it has an answer, and leaves the state alone. -/
theorem look_eq_ok_iff {question : σ → Except ε α} {state next : σ} {value : α} :
    look question state = .ok value next ↔ question state = .ok value ∧ next = state := by
  unfold look
  cases question state with
  | error failure => simp
  | ok found =>
    simp only [EStateM.Result.ok.injEq, Except.ok.injEq]
    exact and_congr_right fun _ => eq_comm

/-- The outcome on a whole succeeds exactly if the one on the part does. -/
theorem place_eq_ok_iff {τ : Type} {build : σ → τ} {outcome : EStateM.Result ε σ α} {value : α}
    {next : τ} :
    place build outcome = .ok value next ↔
      ∃ part, outcome = .ok value part ∧ next = build part := by
  cases outcome with
  | error failure part => simp [place]
  | ok found part =>
    simp only [place, EStateM.Result.ok.injEq]
    constructor
    · rintro ⟨rfl, rfl⟩
      exact ⟨part, ⟨rfl, rfl⟩, rfl⟩
    · rintro ⟨_, ⟨rfl, rfl⟩, rfl⟩
      exact ⟨rfl, rfl⟩

end Action

namespace Exec

variable {α : Type} {core next : Core} {value : α}

/-- Reading the registers changes nothing. -/
@[simp] theorem registers_apply (core : Core) : registers core = .ok core.registers core := rfl

/-- Changing the registers leaves the bus alone. -/
@[simp] theorem alter_apply (change : Registers → Registers) (core : Core) :
    alter change core = .ok () ⟨change core.registers, core.bus⟩ := rfl

/-- A question is answered from the core, which stays as it is. -/
theorem ask_eq_ok_iff {question : Registers → Bus → Except Fault α} :
    ask question core = .ok value next ↔
      question core.registers core.bus = .ok value ∧ next = core :=
  Action.look_eq_ok_iff

/-- A question that has an answer yields it. -/
theorem ask_of_ok {question : Registers → Bus → Except Fault α}
    (h : question core.registers core.bus = .ok value) : ask question core = .ok value core :=
  ask_eq_ok_iff.mpr ⟨h, rfl⟩

/-- An action on the bus leaves the registers alone. -/
theorem onBus_eq_ok_iff {action : EStateM Fault Bus α} :
    onBus action core = .ok value next ↔
      ∃ bus, action core.bus = .ok value bus ∧ next = ⟨core.registers, bus⟩ :=
  Action.place_eq_ok_iff

/-- An action that succeeds on the bus succeeds on the core and leaves the registers alone. -/
theorem onBus_of_ok {action : EStateM Fault Bus α} {bus : Bus}
    (h : action core.bus = .ok value bus) :
    onBus action core = .ok value ⟨core.registers, bus⟩ :=
  onBus_eq_ok_iff.mpr ⟨bus, h, rfl⟩

end Exec

namespace Effect

open Addressing

/-- What a mode delivers at a width. -/
def delivered (width : Width) (mode : Mode) (operand : UInt32) (r : Registers) (bus : Bus) :
    Except Fault UInt16 := do
  match ← target mode operand r bus with
  | .value value => pure (width.narrow (Address.offset value))
  | .address address => bus.readAt width address

/-- Reading an operand asks for what the mode delivers. -/
theorem readOperand_eq (width : Width) (mode : Mode) (operand : UInt32) :
    readOperand width mode operand = Exec.ask (delivered width mode operand) := by
  funext core
  simp only [readOperand, Action.bind_apply, Exec.ask, Action.look, delivered]
  cases target mode operand core.registers core.bus with
  | error fault => rfl
  | ok found => cases found <;> rfl

/-- Instructions that read an operand do to the registers what they do, or fail and do nothing. -/
theorem perform_read_eq (width : Registers → Width) (change : Registers → UInt16 → Registers)
    (mode : Mode) (operands : Operands) (r : Registers) (bus : Bus) :
    (Effect.read width change).perform mode operands ⟨r, bus⟩ =
      match delivered (width r) mode operands.first r bus with
      | .ok value => .ok () ⟨change r value, bus⟩
      | .error fault => .error fault ⟨r, bus⟩ := by
  simp only [perform, readOperand_eq, Action.bind_apply, Exec.registers_apply, Exec.ask,
    Action.look]
  cases delivered (width r) mode operands.first r bus <;> rfl

end Effect

namespace Machine

variable {α : Type} {machine next : Machine} {value : α}

/-- An action on the core succeeds around the core that it leaves. -/
theorem onCore_eq_ok_iff {action : Exec α} :
    onCore action machine = .ok value next ↔
      ∃ core, action machine.core = .ok value core ∧ next = { machine with core } := by
  obtain ⟨core, hooks, control, log, trace⟩ := machine
  simp only [onCore]
  cases action core with
  | error fault after => simp
  | ok found after =>
    simp only [EStateM.Result.ok.injEq]
    constructor
    · rintro ⟨rfl, rfl⟩
      exact ⟨after, ⟨rfl, rfl⟩, rfl⟩
    · rintro ⟨_, ⟨rfl, rfl⟩, rfl⟩
      exact ⟨rfl, rfl⟩

/-- The registers when an instruction is counted. -/
def countedRegisters (r : Registers) : Registers :=
  { r with instructions := r.instructions + 1 }

variable {table : DispatchTable} {record : Record}

/-- A step that reads an instruction goes as that goes on the core. -/
theorem exists_step_of_execute (opcode : record.instruction.opcode ≠ .wdm) {core : Core}
    (read : table.decodeAt machine.bus machine.registers.fullPc machine.registers.widths =
      .ok record)
    (executed : record.instruction.execute record.operands
      ⟨machine.registers.advance record.length, machine.bus⟩ = .ok () core) :
    ∃ next, step table machine = .ok record next ∧
      next.registers = countedRegisters core.registers ∧ next.bus = core.bus := by
  have whole : execute record.instruction record.operands (machine.about record) =
      .ok () { machine.about record with core } := by
    rw [execute, if_neg opcode]
    exact onCore_eq_ok_iff.mpr ⟨core, executed, rfl⟩
  rw [step_of_decodeAt read, whole]
  exact ⟨_, rfl, rfl, rfl⟩

/-- A step that succeeds has read its instruction and carried it out on the core. -/
theorem exists_execute_of_step (opcode : record.instruction.opcode ≠ .wdm)
    (h : step table machine = .ok record next) :
    table.decodeAt machine.bus machine.registers.fullPc machine.registers.widths = .ok record ∧
      ∃ core, record.instruction.execute record.operands
          ⟨machine.registers.advance record.length, machine.bus⟩ = .ok () core ∧
        next.registers = countedRegisters core.registers ∧ next.bus = core.bus := by
  obtain ⟨read, executed, whole, rfl⟩ := exists_executed_of_step h
  rw [execute, if_neg opcode] at whole
  obtain ⟨core, performed, rfl⟩ := onCore_eq_ok_iff.mp whole
  exact ⟨read, core, performed, rfl, rfl⟩

end Machine

end W65C816
