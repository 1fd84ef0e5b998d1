import W65C816.Proofs.Execution.Machine

/-!
# Calls of hooks while a call is active

A hook is called in the middle of an instruction, so a call of the interpreter is active then. The
hook is told so, and a call that it makes itself is refused. The log of the hooks is a witness of
that: `Machine.Guarded` says it of all calls in the log, and every action of the machine that keeps
an active call active keeps it, from one call of a hook, `Machine.keepsActive_invoke`, to runs of
any length, `Machine.keepsActive_turns`.
-/

set_option autoImplicit false

namespace W65C816

/-- The answer to a call while another one is active. -/
def Fault.alreadyRunning : Fault :=
  .invalidOperation .alreadyRunning

/-- The hook was called while a call was active, and its own calls, if it made any, were refused. -/
structure HookCall.Guarded (call : HookCall) : Prop where
  active : call.phase ≠ .idle
  refused : call.reentry = if call.reaction.reenter then some .refused else none

/-- A call that a hook makes while another one is active is refused. -/
theorem HookCall.guarded_of_running {call : HookCall} {control : Control}
    (running : control.running = true) (phase : call.phase = control.phase)
    (reentry : call.reentry =
      if (call.reaction.reenter && control.phase != .idle) = true then some .refused else none) :
    call.Guarded := by
  have active : control.phase ≠ .idle := (Control.phase_ne_idle_iff _).mpr running
  constructor
  · exact phase ▸ active
  · rw [reentry, bne_iff_ne.mpr active, Bool.and_true]

namespace Machine

variable {α β : Type}

/-- Every call of a hook was guarded. -/
def Guarded (machine : Machine) : Prop :=
  ∀ call ∈ machine.log.toList, call.Guarded

/-- A log of guarded calls stays one when a guarded call is added. -/
theorem guarded_note {log : Array HookCall} (guarded : ∀ call ∈ log.toList, call.Guarded)
    {call : HookCall} (last : call.Guarded) {logged : Bool} :
    ∀ other ∈ (if logged = true then log.push call else log).toList, other.Guarded := by
  intro other member
  split at member
  · rw [Array.toList_push, List.mem_append, List.mem_singleton] at member
    rcases member with earlier | same
    · exact guarded other earlier
    · exact same ▸ last
  · exact guarded other member

/-- A call is active after the action if it was before, and then the calls of hooks that come with
the action are guarded. -/
structure StaysActive (machine next : Machine) : Prop where
  running : next.control.running = machine.control.running
  guarded : machine.control.running = true → machine.Guarded → next.Guarded

/-- A machine that nothing happens to stays active. -/
theorem StaysActive.refl (machine : Machine) : machine.StaysActive machine :=
  ⟨rfl, fun _ guarded => guarded⟩

/-- Two actions in a row stay active if both do. -/
theorem StaysActive.trans {machine next last : Machine} (h : machine.StaysActive next)
    (h' : next.StaysActive last) : machine.StaysActive last where
  running := h'.running.trans h.running
  guarded := fun running guarded =>
    h'.guarded (h.running.trans running) (h.guarded running guarded)

abbrev KeepsActive (action : MachineAction α) : Prop :=
  Action.Within StaysActive action

/-- An action and what follows keep a machine active if both do. -/
theorem KeepsActive.bind {first : MachineAction α} {rest : α → MachineAction β}
    (hfirst : KeepsActive first) (hrest : ∀ value, KeepsActive (rest value)) :
    KeepsActive (first >>= rest) := by
  refine Action.Within.bind ?_ hfirst hrest
  intro machine next last h h'
  exact h.trans h'

/-- Actions on the core do not touch the control. -/
theorem keepsActive_onCore (action : Exec α) : KeepsActive (onCore action) := by
  rintro ⟨core, hooks, control, log, trace⟩
  simp only [onCore]
  cases action core <;> exact ⟨rfl, fun _ guarded => guarded⟩

/-- While a call is active, a hook is told so, and is refused a call of its own. -/
theorem keepsActive_invoke (index : Nat) (sighting : Sighting) :
    KeepsActive (invoke index sighting) := by
  rintro ⟨core, hooks, control, log, trace⟩
  cases found : hooks.get? index with
  | none =>
    simp only [invoke, found]
    exact StaysActive.refl _
  | some hook =>
    generalize react : hook.react (hook.calls + 1) sighting = reaction
    -- A hook that asks for a cancellation does not end the call.
    have running : (if reaction.cancel = true then control.cancel else control).running =
        control.running := by
      split <;> rfl
    by_cases panics : reaction.panic = true
    · simp only [invoke, found, respond, react, if_pos panics]
      refine ⟨running, fun active guarded => ?_⟩
      exact guarded_note guarded (HookCall.guarded_of_running active rfl rfl)
    · simp only [invoke, found, respond, react, if_neg panics]
      refine ⟨running, fun active guarded => ?_⟩
      exact guarded_note guarded (HookCall.guarded_of_running active rfl rfl)

/-- A hook that is called leaves the machine active, whatever it calls itself. -/
theorem keepsActive_callHook (instruction : Instruction) (slot : UInt8) :
    KeepsActive (callHook instruction slot) := by
  have ends : KeepsActive (pure () : MachineAction Unit) := StaysActive.refl
  intro machine
  rw [callHook_eq]
  split
  · exact ends machine
  · exact (keepsActive_invoke _ _).bind (fun _ => ends) machine

/-- Executing an instruction leaves the machine active. -/
theorem keepsActive_execute (instruction : Instruction) (operands : Operands) :
    KeepsActive (execute instruction operands) := by
  unfold execute
  split
  · exact keepsActive_callHook _ _
  · exact keepsActive_onCore _

/-- A step leaves the machine active. -/
theorem keepsActive_step (table : DispatchTable) : KeepsActive (step table) := by
  apply KeepsActive.bind (keepsActive_onCore _)
  intro record
  apply KeepsActive.bind
  · intro machine
    exact ⟨rfl, fun _ guarded => guarded⟩
  · intro _
    apply KeepsActive.bind (keepsActive_onCore _)
    intro _
    apply KeepsActive.bind (keepsActive_execute _ _)
    intro _
    apply KeepsActive.bind (keepsActive_onCore _)
    intro _
    exact StaysActive.refl

/-- A turn of a run leaves the machine active. -/
theorem keepsActive_turn (table : DispatchTable) : KeepsActive (turn table) := by
  have ends : KeepsActive askHalt := StaysActive.refl
  intro machine
  rw [turn_eq]
  split
  · exact StaysActive.refl machine
  · exact (keepsActive_step table).bind (fun _ => ends) machine

/-- A run of any number of turns, by induction on how many there are. -/
theorem keepsActive_turns (table : DispatchTable) (requests : Nat → Bool) (first limit : Nat) :
    KeepsActive (turns table requests first limit) := by
  induction limit generalizing first with
  | zero => exact StaysActive.refl
  | succ limit ih =>
    have polled : KeepsActive (onControl (if requests first then Control.cancel else id)) := by
      intro machine
      refine ⟨?_, fun _ guarded => guarded⟩
      split <;> rfl
    rw [turns_succ_eq_bind]
    refine polled.bind fun _ => (keepsActive_turn table).bind fun reason => ?_
    cases reason with
    | none => exact ih (first + 1)
    | some reason => exact StaysActive.refl

end Machine

end W65C816
