import W65C816.Execution.Run
import W65C816.Proofs.Execution.Simulation

/-!
# Machines in lockstep

Two machines go in tandem when a relation between them is kept by steps and by what a call does to a
machine around its steps, and shows the same halt and the same run control on both. Turns and runs
then keep it too: `Machine.Tandem.turns`. They keep in lockstep when they also have the same
registers and do not mind these being changed on both alike. One such relation is that the machines
differ in their trace alone, since nothing but the trace itself depends on what it holds.
-/

set_option autoImplicit false

namespace W65C816

namespace Machine

/-- The relation holds between machines that go in tandem. -/
structure Tandem (relation : Machine → Machine → Prop) : Prop where
  halt : ∀ {machine other}, relation machine other →
    machine.registers.halt? = other.registers.halt?
  control : ∀ {machine other}, relation machine other → machine.control = other.control
  startAt : ∀ {machine other}, relation machine other → ∀ start,
    relation
      { machine with core :=
        { machine.core with registers := machine.registers.startAt start } }
      { other with core := { other.core with registers := other.registers.startAt start } }
  resume : ∀ {machine other}, relation machine other →
    relation { machine with core := { machine.core with registers := machine.registers.resume } }
      { other with core := { other.core with registers := other.registers.resume } }
  steer : ∀ {machine other}, relation machine other → ∀ change : Control → Control,
    relation { machine with control := change machine.control }
      { other with control := change other.control }
  step : ∀ table, Action.Simulates relation (step table) (step table)

namespace Tandem

variable {relation : Machine → Machine → Prop}

/-- The reason to stop shows in the registers, and a request for cancellation in the run control. -/
theorem turn (h : Tandem relation) (table : DispatchTable) :
    Action.Simulates relation (turn table) (turn table) := by
  have ends : Action.Simulates relation askHalt askHalt := by
    intro machine other related
    rw [askHalt, askHalt, h.halt related]
    exact .ok _ related
  intro machine other related
  rw [turn_eq, turn_eq, h.control related]
  split
  · exact .ok _ related
  · exact (h.step table).bind (fun _ => ends) machine other related

/-- A request for cancellation is passed on to both. -/
theorem onControl (h : Tandem relation) (change : Control → Control) :
    Action.Simulates relation (onControl change) (onControl change) :=
  fun _ _ related => .ok () (h.steer related change)

/-- A run of any number of turns, by induction on how many there are. -/
theorem turns (h : Tandem relation) (table : DispatchTable) (requests : Nat → Bool)
    (first limit : Nat) :
    Action.Simulates relation (turns table requests first limit)
      (turns table requests first limit) := by
  induction limit generalizing first with
  | zero => exact Action.simulates_pure none
  | succ limit ih =>
    rw [turns_succ_eq_bind]
    refine (h.onControl _).bind fun _ => (h.turn table).bind fun reason => ?_
    cases reason with
    | none => exact ih (first + 1)
    | some reason => exact Action.simulates_pure (some reason)

end Tandem

/-- The relation holds between machines that keep in lockstep. -/
structure Lockstep (relation : Machine → Machine → Prop) : Prop where
  registers : ∀ {machine other}, relation machine other → machine.registers = other.registers
  control : ∀ {machine other}, relation machine other → machine.control = other.control
  alter : ∀ {machine other}, relation machine other → ∀ change : Registers → Registers,
    relation
      { machine with core := { machine.core with registers := change machine.registers } }
      { other with core := { other.core with registers := change other.registers } }
  steer : ∀ {machine other}, relation machine other → ∀ change : Control → Control,
    relation { machine with control := change machine.control }
      { other with control := change other.control }
  install : ∀ {machine other}, relation machine other → ∀ hooks,
    relation { machine with hooks } { other with hooks }
  step : ∀ table, Action.Simulates relation (step table) (step table)

/-- Machines in lockstep halt at the same time. -/
theorem Lockstep.tandem {relation : Machine → Machine → Prop} (h : Lockstep relation) :
    Tandem relation where
  halt := fun related => congrArg Registers.halt? (h.registers related)
  control := h.control
  startAt := fun related start => h.alter related fun r => r.startAt start
  resume := fun related => h.alter related Registers.resume
  steer := h.steer
  step := h.step

/-! ## Traces are not looked at -/

/-- The machines are the same but for their traces. -/
structure SameButTrace (machine other : Machine) : Prop where
  core : machine.core = other.core
  hooks : machine.hooks = other.hooks
  control : machine.control = other.control
  log : machine.log = other.log

variable {α : Type}

/-- Actions on the core do not see the trace. -/
theorem untraced_onCore (action : Exec α) :
    Action.Simulates SameButTrace (onCore action) (onCore action) := by
  rintro ⟨core, hooks, control, log, trace⟩ ⟨_, _, _, _, trace'⟩ ⟨rfl, rfl, rfl, rfl⟩
  simp only [onCore]
  cases action core with
  | ok value next => exact .ok value ⟨rfl, rfl, rfl, rfl⟩
  | error fault next => exact .error (Failure.fault fault) ⟨rfl, rfl, rfl, rfl⟩

/-- A hook does not see the trace. -/
theorem untraced_invoke (index : Nat) (sighting : Sighting) :
    Action.Simulates SameButTrace (invoke index sighting) (invoke index sighting) := by
  rintro ⟨core, hooks, control, log, trace⟩ ⟨_, _, _, _, trace'⟩ ⟨rfl, rfl, rfl, rfl⟩
  cases found : hooks.get? index with
  | none =>
    simp only [invoke, found]
    exact .ok false ⟨rfl, rfl, rfl, rfl⟩
  | some hook =>
    by_cases panics : (hook.react (hook.calls + 1) sighting).panic = true
    · simp only [invoke, found, respond, if_pos panics]
      exact .error _ ⟨rfl, rfl, rfl, rfl⟩
    · simp only [invoke, found, respond, if_neg panics]
      exact .ok true ⟨rfl, rfl, rfl, rfl⟩

/-- Calling a hook for an instruction does not see the trace. -/
theorem untraced_callHook (instruction : Instruction) (slot : UInt8) :
    Action.Simulates SameButTrace (callHook instruction slot) (callHook instruction slot) :=
  simulates_callHook_of_invoke (fun same => congrArg Core.registers same.core) untraced_invoke
    instruction slot

/-- Executing an instruction does not see the trace. -/
theorem untraced_execute (instruction : Instruction) (operands : Operands) :
    Action.Simulates SameButTrace (execute instruction operands)
      (execute instruction operands) := by
  unfold execute
  split
  · exact untraced_callHook _ _
  · exact untraced_onCore _

/-- What is noted of an instruction goes to the trace and nowhere else. -/
theorem untraced_note (record : Record) :
    Action.Simulates SameButTrace (note record) (note record) :=
  fun _ _ same => .ok () ⟨same.core, same.hooks, same.control, same.log⟩

/-- A step writes to the trace but does not read it. -/
theorem untraced_step (table : DispatchTable) :
    Action.Simulates SameButTrace (step table) (step table) :=
  simulates_step_of_parts (untraced_onCore _) untraced_note (fun _ => untraced_onCore _)
    untraced_execute (untraced_onCore _)

/-- Machines that differ in their traces alone keep in lockstep. -/
theorem lockstep_sameButTrace : Lockstep SameButTrace where
  registers := fun same => congrArg Core.registers same.core
  control := fun same => same.control
  alter := by
    rintro ⟨core, hooks, control, log, trace⟩ ⟨_, _, _, _, trace'⟩ ⟨rfl, rfl, rfl, rfl⟩ change
    exact ⟨rfl, rfl, rfl, rfl⟩
  steer := fun same change => ⟨same.core, same.hooks, congrArg change same.control, same.log⟩
  install := fun same _ => ⟨same.core, rfl, same.control, same.log⟩
  step := untraced_step

end Machine

end W65C816
