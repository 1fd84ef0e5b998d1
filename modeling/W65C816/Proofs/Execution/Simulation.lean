import W65C816.Execution.Machine
import W65C816.Proofs.Execution.Frame

/-!
# Machines that differ in what hooks are told

Two actions simulate each other over a relation when from related states they come to the same end,
with the same value or the same failure, and leave related states behind. Here the relation lets two
machines differ in their run control, and with it in the phase that the log has for each call of a
hook. Hooks do not act on what they are told of the phase, so a step takes machines that are alike
to machines that are alike. `Machine.simulates_step` says so for every relation between the run
controls that requests for cancellation keep.

A set of hooks is calm when none of them ever panics. Calm hooks stay calm, and a step with them
never ends in a panic.
-/

set_option autoImplicit false

namespace W65C816

/-! ## Simulation -/

namespace Action

variable {ε σ τ α β : Type} {relation : σ → τ → Prop}

/-- Both outcomes have the same value or the same failure, and the states that they leave behind are
related. -/
inductive Matches (relation : σ → τ → Prop) :
    EStateM.Result ε σ α → EStateM.Result ε τ α → Prop
  | ok (value : α) {state : σ} {other : τ} (h : relation state other) :
    Matches relation (.ok value state) (.ok value other)
  | error (failure : ε) {state : σ} {other : τ} (h : relation state other) :
    Matches relation (.error failure state) (.error failure other)

/-- What matches a success is a success. -/
theorem Matches.of_ok {outcome : EStateM.Result ε σ α} {value : α} {other : τ}
    (h : Matches relation outcome (.ok value other)) :
    ∃ state, outcome = .ok value state ∧ relation state other := by
  cases h with
  | ok _ related => exact ⟨_, rfl, related⟩

/-- What matches a failure is the same failure. -/
theorem Matches.of_error {outcome : EStateM.Result ε σ α} {failure : ε} {other : τ}
    (h : Matches relation outcome (.error failure other)) :
    ∃ state, outcome = .error failure state ∧ relation state other := by
  cases h with
  | error _ related => exact ⟨_, rfl, related⟩

/-- Outcomes that match leave related states. -/
theorem Matches.stateAfter {outcome : EStateM.Result ε σ α} {outcome' : EStateM.Result ε τ α}
    (h : Matches relation outcome outcome') :
    relation (Action.stateAfter outcome) (Action.stateAfter outcome') := by
  cases h with
  | ok value related => exact related
  | error failure related => exact related

/-- From related states the actions come to matching outcomes. -/
def Simulates (relation : σ → τ → Prop) (action : EStateM ε σ α) (other : EStateM ε τ α) : Prop :=
  ∀ state state', relation state state' → Matches relation (action state) (other state')

/-- An action and what follows are simulated if both are. -/
theorem Simulates.bind {first : EStateM ε σ α} {first' : EStateM ε τ α}
    {rest : α → EStateM ε σ β} {rest' : α → EStateM ε τ β}
    (hfirst : Simulates relation first first')
    (hrest : ∀ value, Simulates relation (rest value) (rest' value)) :
    Simulates relation (first >>= rest) (first' >>= rest') := by
  intro state state' related
  have h := hfirst state state' related
  rw [bind_apply, bind_apply]
  generalize first state = outcome at h
  generalize first' state' = outcome' at h
  cases h with
  | ok value related => exact hrest value _ _ related
  | error failure related => exact .error failure related

/-- Relations that hold of the same states are kept by the same actions. -/
theorem Simulates.congr {relation' : σ → τ → Prop}
    (same : ∀ {state other}, relation state other ↔ relation' state other)
    {action : EStateM ε σ α} {other : EStateM ε τ α} (h : Simulates relation action other) :
    Simulates relation' action other := by
  intro state state' related
  have hmatch := h state state' (same.mpr related)
  generalize action state = outcome at hmatch
  generalize other state' = outcome' at hmatch
  cases hmatch with
  | ok value related => exact .ok value (same.mp related)
  | error failure related => exact .error failure (same.mp related)

/-- A value is simulated by itself. -/
theorem simulates_pure (value : α) :
    Simulates relation (pure value : EStateM ε σ α) (pure value : EStateM ε τ α) :=
  fun _ _ related => .ok value related

end Action

/-! ## Calls of hooks, the phase aside -/

/-- What is logged of a call of a hook, without the phases that it was told. -/
def HookCall.withoutPhase (call : HookCall) : HookCall :=
  { call with phase := .idle, phaseAfter := call.phaseAfter.map fun _ => .idle }

/-- Logs that have something in common still have it when both note calls that have it in common, or
neither does. -/
theorem HookCall.map_noted {α : Type} {view : HookCall → α} {log log' : Array HookCall}
    {call call' : HookCall} (logs : log.toList.map view = log'.toList.map view)
    (calls : view call = view call') (logged : Bool) :
    (if logged = true then log.push call else log).toList.map view =
      (if logged = true then log'.push call' else log').toList.map view := by
  split
  · rw [Array.toList_push, Array.toList_push, List.map_append, List.map_append, logs,
      List.map_singleton, List.map_singleton, calls]
  · exact logs

namespace Machine

/-- The machines have the same registers, memory, hooks and trace, and their logs have the same
calls of hooks, up to the phases that the hooks were told. -/
structure Alike (machine other : Machine) : Prop where
  core : machine.core = other.core
  hooks : machine.hooks = other.hooks
  log : machine.log.toList.map HookCall.withoutPhase = other.log.toList.map HookCall.withoutPhase
  trace : machine.trace = other.trace

namespace Alike

/-- Machines that are alike have the same registers. -/
theorem registers {machine other : Machine} (h : machine.Alike other) :
    machine.registers = other.registers :=
  congrArg Core.registers h.core

/-- A machine is like itself. -/
theorem refl (machine : Machine) : machine.Alike machine :=
  ⟨rfl, rfl, rfl, rfl⟩

/-- Machines that are like a third are like each other. -/
theorem trans {machine other third : Machine} (h : machine.Alike other)
    (h' : other.Alike third) : machine.Alike third :=
  ⟨h.core.trans h'.core, h.hooks.trans h'.hooks, h.log.trans h'.log, h.trace.trans h'.trace⟩

end Alike

/-- A relation between run controls that both see an active call alike and that stays when a
cancellation is requested of both. -/
structure ControlRelation (relation : Control → Control → Prop) : Prop where
  running : ∀ {control other}, relation control other → control.running = other.running
  cancel : ∀ {control other}, relation control other → relation control.cancel other.cancel

/-- Machines that are alike, with related run controls. -/
def AlikeUnder (relation : Control → Control → Prop) (machine other : Machine) : Prop :=
  machine.Alike other ∧ relation machine.control other.control

/-- Both run controls show an active call. -/
def BothRunning (control other : Control) : Prop :=
  control.running = true ∧ other.running = true

/-- That both run is enough for the control of two machines. -/
theorem controlRelation_bothRunning : ControlRelation BothRunning where
  running := fun h => h.1.trans h.2.symm
  cancel := fun h => h

/-- Equality is enough for the control of two machines. -/
theorem controlRelation_eq : ControlRelation Eq where
  running := fun h => h ▸ rfl
  cancel := fun h => h ▸ rfl

/-- A call of the hook that an operand names is alike on machines that show it the same registers,
if calls of hooks are. -/
theorem simulates_callHook_of_invoke {related : Machine → Machine → Prop}
    (registers : ∀ {machine other}, related machine other → machine.registers = other.registers)
    (hinvoke : ∀ index sighting,
      Action.Simulates related (invoke index sighting) (invoke index sighting))
    (instruction : Instruction) (slot : UInt8) :
    Action.Simulates related (callHook instruction slot) (callHook instruction slot) := by
  intro machine other h
  rw [callHook_eq, callHook_eq, registers h]
  split
  · exact .ok () h
  · exact (hinvoke _ _).bind (fun _ => Action.simulates_pure ()) machine other h

/-- A step keeps a relation that each of its parts keeps. -/
theorem simulates_step_of_parts {related : Machine → Machine → Prop} {table : DispatchTable}
    (hfetch : Action.Simulates related (fetch table) (fetch table))
    (hnote : ∀ record, Action.Simulates related (note record) (note record))
    (hadvance : ∀ count, Action.Simulates related (alter fun r => r.advance count)
      (alter fun r => r.advance count))
    (hexecute : ∀ instruction operands, Action.Simulates related (execute instruction operands)
      (execute instruction operands))
    (hcount : Action.Simulates related
      (alter fun r => { r with instructions := r.instructions + 1 })
      (alter fun r => { r with instructions := r.instructions + 1 })) :
    Action.Simulates related (step table) (step table) := by
  refine Action.Simulates.bind hfetch fun record => ?_
  refine Action.Simulates.bind (hnote record) fun _ => ?_
  refine Action.Simulates.bind (hadvance record.length) fun _ => ?_
  refine Action.Simulates.bind (hexecute record.instruction record.operands) fun _ => ?_
  exact Action.Simulates.bind hcount fun _ => Action.simulates_pure record

variable {relation : Control → Control → Prop} {α : Type}

/-- Actions on the core do not see the control. -/
theorem simulates_onCore (action : Exec α) :
    Action.Simulates (AlikeUnder relation) (onCore action) (onCore action) := by
  rintro ⟨core, hooks, control, log, trace⟩ ⟨core', hooks', control', log', trace'⟩
    ⟨⟨hcore, hhooks, hlog, htrace⟩, hcontrol⟩
  cases hcore
  simp only [onCore]
  cases action core with
  | ok value next => exact .ok value ⟨⟨rfl, hhooks, hlog, htrace⟩, hcontrol⟩
  | error fault next =>
    exact .error (Failure.fault fault) ⟨⟨rfl, hhooks, hlog, htrace⟩, hcontrol⟩

/-- Recording an instruction does not see the control. -/
theorem simulates_note (record : Record) :
    Action.Simulates (AlikeUnder relation) (note record) (note record) := by
  rintro ⟨core, hooks, control, log, trace⟩ ⟨core', hooks', control', log', trace'⟩
    ⟨⟨hcore, hhooks, hlog, htrace⟩, hcontrol⟩
  cases hcore
  cases htrace
  exact .ok () ⟨⟨rfl, hhooks, hlog, rfl⟩, hcontrol⟩

/-- Run controls that see an active call alike are idle alike. -/
theorem idle_eq {control other : Control} (h : control.running = other.running) :
    (control.phase != .idle) = (other.phase != .idle) := by
  rw [Bool.eq_iff_iff, bne_iff_ne, bne_iff_ne, Control.phase_ne_idle_iff,
    Control.phase_ne_idle_iff, h]

/-- A hook reacts to what it sees, which is the same on both sides, and is told phases that may
differ. -/
theorem simulates_invoke (h : ControlRelation relation) (index : Nat) (sighting : Sighting) :
    Action.Simulates (AlikeUnder relation) (invoke index sighting) (invoke index sighting) := by
  rintro ⟨core, hooks, control, log, trace⟩ ⟨core', hooks', control', log', trace'⟩
    ⟨⟨hcore, hhooks, hlog, htrace⟩, hcontrol⟩
  cases hcore
  cases hhooks
  cases htrace
  have hlog : log.toList.map HookCall.withoutPhase = log'.toList.map HookCall.withoutPhase := hlog
  have idle := idle_eq (h.running hcontrol)
  cases found : hooks.get? index with
  | none =>
    simp only [invoke, found]
    exact .ok false ⟨⟨rfl, rfl, hlog, rfl⟩, hcontrol⟩
  | some hook =>
    generalize react : hook.react (hook.calls + 1) sighting = reaction
    have after : relation (if reaction.cancel = true then control.cancel else control)
        (if reaction.cancel = true then control'.cancel else control') := by
      split
      · exact h.cancel hcontrol
      · exact hcontrol
    simp only [invoke, found, respond, react, idle]
    by_cases panics : reaction.panic = true
    · rw [if_pos panics, if_pos panics]
      refine .error Failure.panic ⟨⟨rfl, rfl, HookCall.map_noted hlog ?_ hook.logged, rfl⟩, after⟩
      unfold HookCall.withoutPhase
      cases reaction.cancel <;> rfl
    · rw [if_neg panics, if_neg panics]
      refine .ok true ⟨⟨rfl, rfl, HookCall.map_noted hlog ?_ hook.logged, rfl⟩, after⟩
      unfold HookCall.withoutPhase
      cases reaction.cancel <;> rfl

/-- Hooks are called alike, since they see of the control only what the machines share. -/
theorem simulates_callHook (h : ControlRelation relation) (instruction : Instruction)
    (slot : UInt8) :
    Action.Simulates (AlikeUnder relation) (callHook instruction slot)
      (callHook instruction slot) :=
  simulates_callHook_of_invoke (fun alike => alike.1.registers) (simulates_invoke h) instruction
    slot

/-- Instructions are executed alike. -/
theorem simulates_execute (h : ControlRelation relation) (instruction : Instruction)
    (operands : Operands) :
    Action.Simulates (AlikeUnder relation) (execute instruction operands)
      (execute instruction operands) := by
  unfold execute
  split
  · exact simulates_callHook h _ _
  · exact simulates_onCore _

/-- A step takes machines that are alike to the same end and leaves them alike. -/
theorem simulates_step (h : ControlRelation relation) (table : DispatchTable) :
    Action.Simulates (AlikeUnder relation) (step table) (step table) :=
  simulates_step_of_parts (simulates_onCore _) simulates_note (fun _ => simulates_onCore _)
    (simulates_execute h) (simulates_onCore _)

end Machine

/-! ## Calm hooks -/

/-- No hook ever panics, whatever it sees. -/
def HookTable.Calm (hooks : HookTable) : Prop :=
  ∀ index hook, hooks.get? index = some hook →
    ∀ number sighting, (hook.react number sighting).panic = false

/-- Where there are no hooks, none is found. -/
theorem HookTable.get?_default (index : Nat) : ({} : HookTable).get? index = none := by
  unfold get?
  split
  · exact Vector.getElem_replicate _
  · rfl

/-- Where there are no hooks, none panics. -/
theorem HookTable.calm_default : ({} : HookTable).Calm := by
  intro index hook found
  rw [get?_default] at found
  cases found

/-- What holds of all hooks holds of them all when one comes of which it holds. -/
theorem HookTable.forall_put {holds : Hook → Prop} {hooks : HookTable}
    (h : ∀ index hook, hooks.get? index = some hook → holds hook) (index : Nat) {hook : Hook}
    (new : holds hook) :
    ∀ i other, (hooks.put index (some hook)).get? i = some other → holds other := by
  intro i other hother
  rw [get?_put] at hother
  split at hother
  · obtain rfl := Option.some.inj hother
    exact new
  · exact h i other hother

/-- Hooks stay calm when one comes that never panics. -/
theorem HookTable.Calm.put {hooks : HookTable} (calm : hooks.Calm) (index : Nat) {hook : Hook}
    (quiet : ∀ number sighting, (hook.react number sighting).panic = false) :
    (hooks.put index (some hook)).Calm :=
  HookTable.forall_put calm index quiet

namespace Machine

variable {α β : Type}

/-- On a machine whose hooks are calm the action does not panic, and the hooks are calm after it. -/
def KeepsCalm (action : MachineAction α) : Prop :=
  ∀ machine, machine.hooks.Calm → (Action.stateAfter (action machine)).hooks.Calm ∧
    ∀ next, action machine ≠ .error .panic next

/-- An action and what follows keep hooks calm if both do. -/
theorem KeepsCalm.bind {first : MachineAction α} {rest : α → MachineAction β}
    (hfirst : KeepsCalm first) (hrest : ∀ value, KeepsCalm (rest value)) :
    KeepsCalm (first >>= rest) := by
  intro machine calm
  obtain ⟨hcalm, hpanic⟩ := hfirst machine calm
  rw [Action.bind_apply]
  cases found : first machine with
  | ok value next =>
    rw [found] at hcalm
    exact hrest value next hcalm
  | error failure next =>
    rw [found] at hcalm hpanic
    refine ⟨hcalm, fun last same => ?_⟩
    injection same with panics _
    exact hpanic next (by rw [panics])

/-- Actions on the core do not touch the hooks. -/
theorem keepsCalm_onCore (action : Exec α) : KeepsCalm (onCore action) := by
  rintro ⟨core, hooks, control, log, trace⟩ calm
  simp only [onCore]
  cases action core with
  | ok value next => exact ⟨calm, by simp⟩
  | error fault next => exact ⟨calm, by simp⟩

/-- A calm hook that is called stays calm and does not panic. -/
theorem keepsCalm_invoke (index : Nat) (sighting : Sighting) :
    KeepsCalm (invoke index sighting) := by
  rintro ⟨core, hooks, control, log, trace⟩ calm
  cases found : hooks.get? index with
  | none =>
    simp only [invoke, found]
    exact ⟨calm, by simp⟩
  | some hook =>
    have quiet := calm index hook found (hook.calls + 1) sighting
    simp only [invoke, found, respond, quiet]
    exact ⟨calm.put index (calm index hook found), by simp⟩

/-- Calling a hook for an instruction keeps hooks calm. -/
theorem keepsCalm_callHook (instruction : Instruction) (slot : UInt8) :
    KeepsCalm (callHook instruction slot) := by
  have ends : KeepsCalm (pure () : MachineAction Unit) :=
    fun _ calm => ⟨calm, by simp [pure, EStateM.pure]⟩
  intro machine calm
  rw [callHook_eq]
  split
  · exact ends machine calm
  · exact (keepsCalm_invoke _ _).bind (fun _ => ends) machine calm

/-- Executing an instruction keeps hooks calm. -/
theorem keepsCalm_execute (instruction : Instruction) (operands : Operands) :
    KeepsCalm (execute instruction operands) := by
  unfold execute
  split
  · exact keepsCalm_callHook _ _
  · exact keepsCalm_onCore _

/-- A step with calm hooks never ends in a panic. -/
theorem keepsCalm_step (table : DispatchTable) : KeepsCalm (step table) := by
  refine KeepsCalm.bind (keepsCalm_onCore _) fun record => ?_
  refine KeepsCalm.bind (fun machine calm => ⟨calm, by simp [note]⟩) fun _ => ?_
  refine KeepsCalm.bind (keepsCalm_onCore _) fun _ => ?_
  refine KeepsCalm.bind (keepsCalm_execute _ _) fun _ => ?_
  refine KeepsCalm.bind (keepsCalm_onCore _) fun _ => ?_
  exact fun machine calm => ⟨calm, by simp [pure, EStateM.pure]⟩

end Machine

end W65C816
