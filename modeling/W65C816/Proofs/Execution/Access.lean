import W65C816.Proofs.Execution.Congruence
import W65C816.Proofs.Execution.Lockstep

/-!
# Buses that no access tells apart

Everything that a machine does to its bus is made of accesses. So from cores with the same registers
on buses that no access tells apart an instruction comes to the same end, and leaves the same
registers on related buses behind. This is the walk through the effects with equality for the
congruence, and from it follow a step and `Machine.lockstep_over`.
-/

set_option autoImplicit false

namespace W65C816

/-- Cores with the same registers, on related buses. -/
inductive Core.Over (relation : Bus → Bus → Prop) : Core → Core → Prop
  | intro (r : Registers) {bus other : Bus} (h : relation bus other) :
    Over relation ⟨r, bus⟩ ⟨r, other⟩

variable {relation : Bus → Bus → Prop} {α β : Type}

/-- Cores over related buses are a pair with the same registers. -/
theorem Core.over_iff_paired {core other : Core} :
    Over relation core other ↔ Paired Eq relation core other := by
  constructor
  · rintro ⟨r, related⟩
    exact ⟨rfl, related⟩
  · rintro ⟨rfl, related⟩
    exact ⟨_, related⟩

/-! ## Actions on the core -/

namespace Exec

/-- Cores with the same registers on related buses are taken to the same end, and to cores of the
same kind. -/
abbrev Respects (relation : Bus → Bus → Prop) (action : Exec α) : Prop :=
  Action.Simulates (Core.Over relation) action action

/-- What is congruent for registers that are equal respects the relation of the buses. -/
theorem respects_of_congruent {action : Exec α} (h : Congruent Eq relation action) :
    Respects relation action :=
  h.congr Core.over_iff_paired.symm

/-- A change of the registers respects every relation of the buses. -/
theorem respects_alter (change : Registers → Registers) : Respects relation (alter change) :=
  respects_of_congruent (congruent_alter fun _ _ same => congrArg change same)

/-- A question has one answer when its answer is the same for related buses. -/
theorem respects_ask {question : Registers → Bus → Except Fault α}
    (same : ∀ r {bus other}, relation bus other → question r bus = question r other) :
    Respects relation (ask question) := by
  apply Action.simulates_look
  rintro _ _ ⟨r, related⟩
  exact same r related

/-- An action on the bus respects a relation that the bus action keeps. -/
theorem respects_onBus {action : EStateM Fault Bus α}
    (h : Action.Simulates relation action action) : Respects relation (onBus action) :=
  respects_of_congruent (congruent_onBus h)

end Exec

/-! ## Instructions -/

namespace Instruction

/-- An instruction does the same on buses that answer alike. -/
theorem respects_execute (h : Bus.Bisimulation relation) (instruction : Instruction)
    (operands : Operands) : Exec.Respects relation (instruction.execute operands) :=
  Exec.respects_of_congruent <|
    congruent_execute Registers.congruence_eq h (fun effect _ => effect.congruent_eq) operands

/-- Reading an instruction is an access of the bytes that it consists of. -/
theorem decode_eq_over (h : Bus.Bisimulation relation) {bus other : Bus}
    (related : relation bus other) (instruction : Instruction) (position : UInt32)
    (widths : Widths) :
    instruction.decode bus position widths = instruction.decode other position widths := by
  unfold decode
  simp only [h.check related, h.read8 related, h.read16 related, h.read24 related]

end Instruction

/-- Buses that answer alike decode alike. -/
theorem DispatchTable.decodeAt_eq_over (h : Bus.Bisimulation relation) {bus other : Bus}
    (related : relation bus other) (table : DispatchTable) (offset : UInt32) (widths : Widths) :
    table.decodeAt bus offset widths = table.decodeAt other offset widths := by
  unfold decodeAt
  simp only [h.read8 related, Instruction.decode_eq_over h related]

/-! ## The machine -/

namespace Machine

/-- Machines that are the same but for their buses, which are related. -/
inductive Over (relation : Bus → Bus → Prop) : Machine → Machine → Prop
  | intro {core other : Core} (h : Core.Over relation core other) (hooks : HookTable)
    (control : Control) (log : Array HookCall) (trace : Trace.Journal) :
    Over relation ⟨core, hooks, control, log, trace⟩ ⟨other, hooks, control, log, trace⟩

abbrev Respects (relation : Bus → Bus → Prop) (action : MachineAction α) : Prop :=
  Action.Simulates (Over relation) action action

/-- An action on the core respects a relation on the machine that holds it. -/
theorem respects_onCore {action : Exec α} (h : Exec.Respects relation action) :
    Respects relation (onCore action) := by
  rintro _ _ ⟨related, hooks, control, log, trace⟩
  rename_i core other
  have hmatch := h core other related
  simp only [onCore]
  generalize action core = outcome at hmatch
  generalize action other = outcome' at hmatch
  cases hmatch with
  | ok value related => exact .ok value ⟨related, hooks, control, log, trace⟩
  | error fault related => exact .error _ ⟨related, hooks, control, log, trace⟩

/-- Machines over related buses have the same registers. -/
theorem Over.registers {machine other : Machine} (h : Over relation machine other) :
    machine.registers = other.registers := by
  obtain ⟨⟨r, related⟩, hooks, control, log, trace⟩ := h
  rfl

/-- What a hook sees and what it answers have nothing to do with the bus. -/
theorem respects_invoke (index : Nat) (sighting : Sighting) :
    Respects relation (invoke index sighting) := by
  rintro _ _ ⟨related, hooks, control, log, trace⟩
  cases found : hooks.get? index with
  | none =>
    simp only [invoke, found]
    exact .ok false ⟨related, hooks, control, log, trace⟩
  | some hook =>
    by_cases panics : (hook.react (hook.calls + 1) sighting).panic = true
    · simp only [invoke, found, respond, if_pos panics]
      exact .error _ ⟨related, _, _, _, _⟩
    · simp only [invoke, found, respond, if_neg panics]
      exact .ok true ⟨related, _, _, _, _⟩

/-- A hook is called alike, since it does not see the bus. -/
theorem respects_callHook (instruction : Instruction) (slot : UInt8) :
    Respects relation (callHook instruction slot) :=
  simulates_callHook_of_invoke Over.registers respects_invoke instruction slot

/-- The machine executes an instruction alike on buses that answer alike. -/
theorem respects_execute (h : Bus.Bisimulation relation) (instruction : Instruction)
    (operands : Operands) : Respects relation (execute instruction operands) := by
  unfold execute
  split
  · exact respects_callHook _ _
  · exact respects_onCore (instruction.respects_execute h operands)

/-- The machine fetches alike from buses that answer alike. -/
theorem respects_fetch (h : Bus.Bisimulation relation) (table : DispatchTable) :
    Respects relation (fetch table) := by
  apply respects_onCore
  apply Exec.respects_ask
  intro r bus other related
  exact DispatchTable.decodeAt_eq_over h related table _ _

/-- Recording an instruction respects every relation of the buses. -/
theorem respects_note (record : Record) : Respects relation (note record) := by
  rintro _ _ ⟨⟨r, related⟩, hooks, control, log, trace⟩
  exact .ok () ⟨⟨r, related⟩, _, _, _, _⟩

/-- A step does the same on buses that answer alike. -/
theorem respects_step (h : Bus.Bisimulation relation) (table : DispatchTable) :
    Respects relation (step table) :=
  simulates_step_of_parts (respects_fetch h table) respects_note
    (fun _ => respects_onCore (Exec.respects_alter _)) (respects_execute h)
    (respects_onCore (Exec.respects_alter _))

/-- Machines that are the same but for their buses keep in lockstep. -/
theorem lockstep_over (h : Bus.Bisimulation relation) : Lockstep (Over relation) where
  registers := Over.registers
  control := by
    rintro _ _ ⟨related, hooks, control, log, trace⟩
    rfl
  alter := by
    rintro _ _ ⟨⟨r, related⟩, hooks, control, log, trace⟩ change
    exact ⟨⟨change r, related⟩, hooks, control, log, trace⟩
  steer := by
    rintro _ _ ⟨related, hooks, control, log, trace⟩ change
    exact ⟨related, hooks, change control, log, trace⟩
  install := by
    rintro _ _ ⟨related, _, control, log, trace⟩ hooks
    exact ⟨related, hooks, control, log, trace⟩
  step := respects_step h

end Machine

end W65C816
