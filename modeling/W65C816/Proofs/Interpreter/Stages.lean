import W65C816.Interpreter.Concurrent
import W65C816.Proofs.Execution.Guarded
import W65C816.Proofs.Interpreter.Calls

/-!
# Stages of an interpreter

Between two requests an interpreter is in one of three stages. It rests, perhaps with the failure of
a concurrent run that nobody has collected; or a run of its own is still going on; or a worker is.
This file says what the calls of the driver and the turns of the worker do to an interpreter in each
stage: which calls are refused, what collecting takes away, and which stage is next.
-/

set_option autoImplicit false

namespace W65C816

namespace Interpreter

/-- The failure of a concurrent run that is waiting to be collected. -/
def pending (interpreter : Interpreter) : Option Fault :=
  match interpreter.worker with
  | some (.finished (.error fault)) => some fault
  | _ => none

/-- What an interpreter is doing between two requests. -/
inductive Stage where
  /-- No call is active, and every worker has ended. -/
  | resting (failure : Option Fault)
  /-- A run of its own is going on. -/
  | running
  /-- A worker is at a run. -/
  | working

/-- The failure that waits to be collected in a stage. -/
def Stage.pending : Stage → Option Fault
  | .resting failure => failure
  | .running | .working => none

/-- The interpreter is in a stage. -/
def At (interpreter : Interpreter) : Stage → Prop
  | .resting failure => interpreter.machine.control.running = false ∧
    interpreter.isBusy = false ∧ interpreter.pending = failure
  | .running => interpreter.machine.control.running = true ∧ interpreter.worker = none
  | .working => interpreter.machine.control.running = true ∧ interpreter.isBusy = true

/-- The interpreter is in a stage, and hooks were called only while a call was active. -/
structure InStage (interpreter : Interpreter) (stage : Stage) : Prop where
  stage : interpreter.At stage
  guarded : interpreter.machine.Guarded

variable {interpreter next : Interpreter} {stage : Stage}

/-- The stage shows in the run control and in the worker. -/
theorem At.congr (h : interpreter.At stage)
    (running : next.machine.control.running = interpreter.machine.control.running)
    (worker : next.worker = interpreter.worker) : next.At stage := by
  have busy : next.isBusy = interpreter.isBusy := by rw [isBusy, isBusy, worker]
  have pending_eq : next.pending = interpreter.pending := by rw [pending, pending, worker]
  cases stage with
  | resting failure => exact ⟨running.trans h.1, busy.trans h.2.1, pending_eq.trans h.2.2⟩
  | running => exact ⟨running.trans h.1, worker.trans h.2⟩
  | working => exact ⟨running.trans h.1, busy.trans h.2⟩

/-- No worker is busy while a call of the host runs. -/
theorem not_busy_of_running (h : interpreter.At .running) : interpreter.isBusy = false := by
  rw [isBusy, h.2]

/-- A worker is busy in the working stage only. -/
theorem running_of_busy (h : interpreter.At stage) (busy : interpreter.isBusy = true) :
    stage = .working := by
  cases stage with
  | resting failure => cases h.2.1.symm.trans busy
  | running => cases (not_busy_of_running h).symm.trans busy
  | working => rfl

/-- A busy worker has no failure to report yet. -/
theorem pending_of_busy (busy : interpreter.isBusy = true) : interpreter.pending = none := by
  obtain ⟨machine, table, config, error, reason, worker⟩ := interpreter
  rcases worker with _ | _ | _ | outcome
  · rfl
  · rfl
  · rfl
  · cases busy

/-- The stage tells which failure is pending. -/
theorem At.pending_eq (h : interpreter.At stage) : interpreter.pending = stage.pending := by
  cases stage with
  | resting failure => exact h.2.2
  | running =>
    rw [pending, h.2]
    rfl
  | working => exact pending_of_busy h.2

/-- A failure waits only while the interpreter rests. -/
theorem At.resting_of_pending (h : interpreter.At stage) {fault : Fault}
    (waiting : interpreter.pending = some fault) : stage = .resting (some fault) := by
  rw [h.pending_eq] at waiting
  cases stage with
  | resting failure => exact congrArg Stage.resting waiting
  | running => cases waiting
  | working => cases waiting

/-- An idle interpreter rests. -/
theorem InStage.resting_of_idle (h : interpreter.InStage stage)
    (idle : interpreter.machine.control.running = false) :
    interpreter.At (.resting interpreter.pending) := by
  cases stage with
  | resting failure => exact ⟨idle, h.stage.2.1, rfl⟩
  | running => cases h.stage.1.symm.trans idle
  | working => cases h.stage.1.symm.trans idle

/-- An interpreter is idle when no worker is at a run and no run of its own is going on. -/
theorem At.idle_iff (h : interpreter.At stage) :
    interpreter.phase = .idle ↔ interpreter.isBusy = false ∧ stage ≠ .running := by
  rw [phase, Control.phase_eq_idle_iff]
  cases stage with
  | resting failure => exact ⟨fun _ => ⟨h.2.1, nofun⟩, fun _ => h.1⟩
  | running =>
    refine ⟨fun idle => ?_, fun both => absurd rfl both.2⟩
    cases idle.symm.trans h.1
  | working =>
    refine ⟨fun idle => ?_, fun both => ?_⟩
    · cases idle.symm.trans h.1
    · cases both.1.symm.trans h.2

/-- An action on the machine changes nothing else, and keeps an active call active. -/
theorem onMachine_cases {α : Type} {action : DispatchTable → MachineAction α}
    (h : ∀ table, Machine.KeepsActive (action table)) (interpreter : Interpreter) :
    (∃ value machine, onMachine action interpreter = .ok value { interpreter with machine } ∧
        interpreter.machine.StaysActive machine) ∨
      ∃ failure machine,
        onMachine action interpreter = .error failure { interpreter with machine } ∧
          interpreter.machine.StaysActive machine := by
  obtain ⟨machine, table, config, lastError, stopReason, worker⟩ := interpreter
  have haction := h table machine
  cases found : action table machine with
  | ok value next =>
    rw [found] at haction
    refine .inl ⟨value, next, ?_, haction⟩
    simp only [onMachine, found, Action.place]
  | error failure next =>
    rw [found] at haction
    refine .inr ⟨failure, next, ?_, haction⟩
    simp only [onMachine, found, Action.place]

/-! ## Calls -/

/-- An idle interpreter becomes active. -/
theorem begin_of_idle (idle : interpreter.machine.control.running = false) :
    begin interpreter = .ok () { interpreter with machine := interpreter.active } := by
  simp only [begin, Control.begin, idle, Bool.false_eq_true, if_false]
  rfl

/-- While a call is active, every call is refused and nothing changes. -/
theorem calls_of_running (running : interpreter.machine.control.running = true)
    (start : Option UInt32) (cancels : Nat → Bool) (limit : Nat) (obstacle : Option String) :
    runOnce start interpreter = .error (.fault .alreadyRunning) interpreter ∧
      run start cancels limit interpreter = .error (.fault .alreadyRunning) interpreter ∧
      spawn start obstacle interpreter = .error (.fault .alreadyRunning) interpreter := by
  have refused := begin_of_running running
  refine ⟨?_, ?_, ?_⟩
  · simp only [runOnce, carryOut, refused, Fault.alreadyRunning]
  · simp only [run, carryOn, beginRun, refused, Fault.alreadyRunning]
  · simp only [spawn, beginRun, refused, Fault.alreadyRunning]

/-- Collecting from an interpreter without a worker at work takes away what is there. -/
theorem collect_eq (quiet : interpreter.isBusy = false) :
    collect interpreter = match interpreter.pending with
      | some fault => .error (.fault fault) { interpreter with worker := none }
      | none => .ok () { interpreter with worker := none } := by
  obtain ⟨machine, table, config, lastError, stopReason, worker⟩ := interpreter
  rcases worker with _ | _ | _ | (fault | _)
  · rfl
  · cases quiet
  · cases quiet
  · rfl
  · rfl

/-- The machine at the beginning of a run. -/
def begun (start : Option UInt32) (interpreter : Interpreter) : Machine :=
  { interpreter.machine with
    core := { interpreter.machine.core with
      registers := interpreter.registers.startAt start }
    control := { running := true, cancelled := false } }

/-- A run begins by collecting what an earlier worker has left behind. If that is a failure, no run
begins. -/
theorem beginRun_of_idle (idle : interpreter.machine.control.running = false)
    (quiet : interpreter.isBusy = false) (start : Option UInt32) :
    beginRun start interpreter = match interpreter.pending with
      | some fault => .error (.fault fault) { interpreter with worker := none }
      | none => .ok () { interpreter with
          machine := interpreter.begun start, worker := none, stopReason := none } := by
  obtain ⟨⟨core, hooks, ⟨running, cancelled⟩, log, trace⟩, table, config, error, reason, worker⟩ :=
    interpreter
  cases idle
  rcases worker with _ | _ | _ | (fault | _)
  · rfl
  · cases quiet
  · cases quiet
  · rfl
  · rfl

/-- A run does not begin before the pending failure was collected, and then it reports that. -/
theorem beginRun_of_pending {fault : Fault} (h : interpreter.At (.resting (some fault)))
    (start : Option UInt32) :
    beginRun start interpreter = .error (.fault fault) { interpreter with worker := none } := by
  rw [beginRun_of_idle h.1 h.2.1, h.2.2]

/-- From rest a run begins, and forgets how the one before has ended. -/
theorem beginRun_of_resting (h : interpreter.At (.resting none)) (start : Option UInt32) :
    beginRun start interpreter = .ok () { interpreter with
      machine := interpreter.begun start, worker := none, stopReason := none } := by
  rw [beginRun_of_idle h.1 h.2.1, h.2.2]

/-- One instruction leaves the interpreter in its stage. -/
theorem InStage.runOnce (h : interpreter.InStage stage) (start : Option UInt32) :
    (Action.stateAfter (Interpreter.runOnce start interpreter)).InStage stage := by
  cases running : interpreter.machine.control.running with
  | true =>
    rw [(calls_of_running running start (fun _ => false) 0 none).1]
    exact h
  | false =>
    let moved := { interpreter with machine := interpreter.active }.alterRegisters fun r =>
      r.startAt start
    have active : moved.machine.control.running = true := rfl
    have guarded : moved.machine.Guarded := h.guarded
    -- However the step ends, the call is released, and no worker has been touched.
    have settles (machine : Machine) (stays : moved.machine.StaysActive machine) :
        ({ moved with machine }.release).InStage stage :=
      ⟨h.stage.congr running.symm rfl, stays.guarded active guarded⟩
    have began := begin_of_idle running
    rcases onMachine_cases Machine.keepsActive_step moved with
      ⟨record, machine, hstep, stays⟩ | ⟨failure, machine, hstep, stays⟩
    · simp only [runOnce_eq_carryOut, carryOut, began, hstep, moved]
      exact settles machine stays
    · cases failure with
      | panic =>
        simp only [runOnce_eq_carryOut, carryOut, began, hstep, moved]
        exact settles machine stays
      | fault fault =>
        simp only [runOnce_eq_carryOut, carryOut, began, hstep, moved, stateAfter_report]
        have settled := settles machine stays
        exact ⟨settled.stage.congr rfl rfl, settled.guarded⟩

/-- A run that begins is still going on when the time to look at it has come, or has ended in one of
the ways in which runs end. -/
theorem InStage.run (h : interpreter.InStage (.resting none)) (start : Option UInt32)
    (cancels : Nat → Bool) (limit : Nat) :
    (∃ next, Interpreter.run start cancels limit interpreter = .ok false next ∧
        next.InStage .running) ∨
      (∀ next, Interpreter.run start cancels limit interpreter ≠ .ok false next) ∧
        (Action.stateAfter (Interpreter.run start cancels limit interpreter)).InStage
          (.resting none) := by
  let begun := { interpreter with
    machine := interpreter.begun start, worker := none, stopReason := none }
  let machine := (begun.alterRegisters Registers.resume).machine
  have active : machine.control.running = true := rfl
  have guarded : machine.Guarded := h.guarded
  have stays := Machine.keepsActive_turns interpreter.table cancels 0 limit machine
  have rests (last : Machine) (stays : machine.StaysActive last) :
      ({ begun with machine := last }.release).InStage (.resting none) :=
    ⟨⟨rfl, rfl, rfl⟩, stays.guarded active guarded⟩
  have outcome : Interpreter.run start cancels limit interpreter = begun.handedBack
      (Machine.turns interpreter.table cancels 0 limit machine) :=
    run_of_begun (beginRun_of_resting h.stage start) cancels limit
  rw [outcome]
  generalize Machine.turns interpreter.table cancels 0 limit machine = turns at stays
  rcases turns with ⟨_ | reason, last⟩ | ⟨fault | _, last⟩
  · -- The run has not ended, so nothing has been released.
    exact .inl ⟨{ begun with machine := last }, rfl, ⟨stays.running.trans active, rfl⟩,
      stays.guarded active guarded⟩
  · have settled := rests last stays
    refine .inr ⟨?_, settled.stage.congr rfl rfl, settled.guarded⟩
    intro next same
    cases same
  · have settled := rests last stays
    refine .inr ⟨?_, ?_⟩
    · intro next same
      rcases report_cases fault true
        (({ begun with machine := last }.finish .error).keepError fault).release with h | h <;>
        cases h.symm.trans same
    · rw [handedBack, stateAfter_report]
      exact ⟨settled.stage.congr rfl rfl, settled.guarded⟩
  · refine .inr ⟨?_, rests last stays⟩
    intro next same
    cases same

/-- A run that is handed to a worker leaves the interpreter with a worker at work. If there is none
to be had, the call says why, and the interpreter rests again. -/
theorem InStage.spawn (h : interpreter.InStage (.resting none)) (start : Option UInt32)
    (obstacle : Option String) :
    ∃ next, match obstacle with
      | none => Interpreter.spawn start none interpreter = .ok () next ∧ next.InStage .working
      | some why => Interpreter.spawn start (some why) interpreter =
          .error (.fault (.invalidOperation (.noWorker why))) next ∧
        next.InStage (.resting none) := by
  let begun := { interpreter with
    machine := interpreter.begun start, worker := none, stopReason := none }
  have began := beginRun_of_resting h.stage start
  cases obstacle with
  | none =>
    refine ⟨{ begun with worker := some .starting }, ?_, ⟨rfl, rfl⟩, h.guarded⟩
    simp only [Interpreter.spawn, began, begun]
  | some why =>
    refine ⟨begun.release, ?_, ⟨rfl, rfl, rfl⟩, h.guarded⟩
    simp only [Interpreter.spawn, began, begun]

/-- A turn of the worker goes on with its run, or ends it, perhaps with a failure. -/
theorem InStage.advance (h : interpreter.InStage .working) :
    interpreter.advance.InStage .working ∨
      ∃ failure, interpreter.advance.InStage (.resting failure) := by
  obtain ⟨running, busy⟩ := h.stage
  obtain ⟨machine, table, config, error, reason, worker⟩ := interpreter
  rcases worker with _ | _ | _ | outcome
  · cases busy
  · exact .inl ⟨⟨running, rfl⟩, h.guarded⟩
  · rcases onMachine_cases Machine.keepsActive_turn
      ⟨machine, table, config, error, reason, some .looping⟩ with
      ⟨ended, next, hturn, stays⟩ | ⟨failure, next, hturn, stays⟩
    · have guarded := stays.guarded running h.guarded
      simp only [Interpreter.advance, turn_eq, hturn]
      cases ended with
      | none => exact .inl ⟨⟨stays.running.trans running, rfl⟩, guarded⟩
      | some reason => exact .inr ⟨none, ⟨rfl, rfl, rfl⟩, guarded⟩
    · have guarded := stays.guarded running h.guarded
      simp only [Interpreter.advance, turn_eq, hturn]
      cases failure with
      | panic => exact .inr ⟨_, ⟨rfl, rfl, rfl⟩, guarded⟩
      | fault fault =>
        simp only [finish, keepError]
        cases config.policy with
        | record => exact .inr ⟨_, ⟨rfl, rfl, rfl⟩, guarded⟩
        | propagate => exact .inr ⟨_, ⟨rfl, rfl, rfl⟩, guarded⟩
  · cases busy

/-- Nothing advances without a worker. -/
theorem advance_of_quiet (quiet : interpreter.isBusy = false) :
    interpreter.advance = interpreter := by
  obtain ⟨machine, table, config, error, reason, worker⟩ := interpreter
  rcases worker with _ | _ | _ | outcome
  · rfl
  · cases quiet
  · cases quiet
  · rfl

/-- Nothing is to be settled without a worker. -/
theorem settle_of_quiet (quiet : interpreter.isBusy = false) (limit : Nat) :
    settle limit interpreter = interpreter := by
  cases limit with
  | zero => rfl
  | succ limit =>
    unfold settle
    rw [quiet]
    rfl

/-- Any number of turns of the worker, by induction on how many there are. -/
theorem InStage.settle (h : interpreter.InStage .working) (limit : Nat) :
    (settle limit interpreter).InStage .working ∨
      ∃ failure, (Interpreter.settle limit interpreter).InStage (.resting failure) := by
  induction limit generalizing interpreter with
  | zero => exact .inl h
  | succ limit ih =>
    have steps : Interpreter.settle (limit + 1) interpreter =
        Interpreter.settle limit interpreter.advance := by
      rw [Interpreter.settle, if_pos h.stage.2]
    rw [steps]
    rcases h.advance with working | ⟨failure, resting⟩
    · exact ih working
    · -- A worker that has ended takes none of the turns that are left.
      rw [settle_of_quiet resting.stage.2.1]
      exact .inr ⟨failure, resting⟩

/-- What `wait` answers is a matter of what the worker has left behind by then. -/
theorem wait_eq (limit : Nat) (interpreter : Interpreter) :
    wait limit interpreter =
      if (Interpreter.settle limit interpreter).isBusy then
        .ok false (Interpreter.settle limit interpreter)
      else
        match (Interpreter.settle limit interpreter).pending with
        | some fault =>
          .error (.fault fault) { Interpreter.settle limit interpreter with worker := none }
        | none => .ok true { Interpreter.settle limit interpreter with worker := none } := by
  unfold wait
  generalize Interpreter.settle limit interpreter = settled
  cases busy : settled.isBusy with
  | true => simp only [busy, if_true]
  | false =>
    simp only [busy, Bool.false_eq_true, if_false, collect_eq busy]
    cases settled.pending <;> rfl

/-- Waiting fails only with what the worker has left behind. -/
theorem wait_eq_error_iff {limit : Nat} {failure : Failure} :
    wait limit interpreter = .error failure next ↔
      (Interpreter.settle limit interpreter).isBusy = false ∧
        ∃ fault, (Interpreter.settle limit interpreter).pending = some fault ∧
          failure = .fault fault ∧
          next = { Interpreter.settle limit interpreter with worker := none } := by
  rw [wait_eq]
  generalize Interpreter.settle limit interpreter = settled
  constructor
  · intro h
    split at h
    · cases h
    · next quiet =>
      split at h
      · next fault waiting =>
        cases h
        exact ⟨eq_false_of_ne_true quiet, fault, waiting, rfl, rfl⟩
      · cases h
  · rintro ⟨quiet, fault, waiting, rfl, rfl⟩
    rw [quiet, waiting]
    rfl

/-- To request cancellation changes no stage. -/
theorem InStage.cancel (h : interpreter.InStage stage) : interpreter.cancel.InStage stage :=
  ⟨h.stage.congr rfl rfl, h.guarded⟩

/-- Waiting takes what the worker has left behind, if the worker has ended by then. -/
theorem stateAfter_wait (limit : Nat) (interpreter : Interpreter) :
    Action.stateAfter (wait limit interpreter) =
      if (Interpreter.settle limit interpreter).isBusy then Interpreter.settle limit interpreter
      else { Interpreter.settle limit interpreter with worker := none } := by
  rw [wait_eq]
  split
  · rfl
  · split <;> rfl

/-- A worker that was collected leaves an interpreter at rest, with no failure pending. -/
theorem InStage.withoutWorker {failure : Option Fault}
    (h : interpreter.InStage (.resting failure)) :
    ({ interpreter with worker := none } : Interpreter).InStage (.resting none) :=
  ⟨⟨h.stage.1, rfl, rfl⟩, h.guarded⟩

end Interpreter

end W65C816
