import W65C816.Interpreter.Reentry
import W65C816.Proofs.Execution.Counting
import W65C816.Proofs.Execution.Simulation

/-!
# Calls in a row

A call of `runOnce` on an idle interpreter is a step of its machine, with the interpreter active for
as long as the step takes. `Interpreter.afterCalls` repeats such calls, and this file says what one
of them can do, `Interpreter.call_cases`, and what any number of them keeps: the interpreter stays
idle, its hooks stay calm, and its count of instructions grows by the calls that succeed. A run that
has begun is the turns of its machine and what is made of their end, `Interpreter.run_of_begun`.
-/

set_option autoImplicit false

namespace W65C816.Interpreter

/-! ## What calls do -/

/-- The interpreter that a call of `runOnce` leaves behind, going on where the program is. -/
def afterCall (interpreter : Interpreter) : Interpreter :=
  Action.stateAfter (runOnce none interpreter)

/-- The interpreter after a number of calls of `runOnce`. -/
def afterCalls (interpreter : Interpreter) : Nat → Interpreter
  | 0 => interpreter
  | calls + 1 => (interpreter.afterCalls calls).afterCall

/-- The next call carries out its instruction. -/
def succeeds (interpreter : Interpreter) : Bool :=
  match runOnce none interpreter with
  | .ok (some _) _ => true
  | _ => false

/-- The next call fails with a fault: the fault is kept, and answered as the policy says. -/
def FailsWith (interpreter : Interpreter) (fault : Fault) : Prop :=
  runOnce none interpreter = report fault none interpreter.afterCall ∧
    interpreter.afterCall.lastError = some fault

/-- The next call carries out an instruction that does not halt the processor. -/
structure GoesOn (interpreter : Interpreter) : Prop where
  succeeds : interpreter.succeeds = true
  running : interpreter.afterCall.registers.stopped = false
  awake : interpreter.afterCall.registers.waiting = false

/-- A hook requests a cancellation during the next call. -/
def CancelsItself (interpreter : Interpreter) : Prop :=
  (interpreter.alterControl Control.reset).afterCall.machine.control.cancelled = true

/-! ## One call -/

/-- The machine while a call is active. -/
def active (interpreter : Interpreter) : Machine :=
  { interpreter.machine with control := { interpreter.machine.control with running := true } }

/-- The interpreter when the active call has ended with a machine. -/
def withMachine (interpreter : Interpreter) (machine : Machine) : Interpreter :=
  { interpreter with machine }.release

/-- A call on an idle interpreter is a step of its machine. -/
theorem runOnce_eq (interpreter : Interpreter)
    (idle : interpreter.machine.control.running = false) :
    runOnce none interpreter =
      match Machine.step interpreter.table interpreter.active with
      | .ok record next => .ok (some record) (interpreter.withMachine next)
      | .error (.fault fault) next =>
        report fault none ((interpreter.withMachine next).keepError fault)
      | .error .panic next => .error .panic (interpreter.withMachine next) := by
  obtain ⟨⟨core, hooks, ⟨running, cancelled⟩, log, trace⟩, table, config, error, reason, worker⟩ :=
    interpreter
  cases idle
  rw [runOnce_eq_carryOut]
  simp only [carryOut, begin, Control.begin, onMachine, alterControl, alterRegisters, alterMachine,
    active, withMachine, Registers.startAt, Bool.false_eq_true, if_false]
  generalize Machine.step table _ = outcome
  rcases outcome with ⟨record, next⟩ | ⟨fault | _, next⟩ <;> rfl

/-- A fault that is reported is returned or recorded, and leaves the interpreter either way. -/
theorem report_cases {α : Type} (fault : Fault) (value : α) (interpreter : Interpreter) :
    report fault value interpreter = .ok value interpreter ∨
      report fault value interpreter = .error (.fault fault) interpreter := by
  unfold report
  cases interpreter.config.policy
  · exact .inl rfl
  · exact .inr rfl

/-- A call with calm hooks ends in one of two ways. -/
theorem call_cases (interpreter : Interpreter)
    (idle : interpreter.machine.control.running = false) (calm : interpreter.machine.hooks.Calm) :
    (∃ record next, Machine.step interpreter.table interpreter.active = .ok record next ∧
        interpreter.succeeds = true ∧ interpreter.afterCall = interpreter.withMachine next) ∨
      ∃ fault next, Machine.step interpreter.table interpreter.active = .error (.fault fault) next ∧
        interpreter.succeeds = false ∧ interpreter.FailsWith fault ∧
        interpreter.afterCall = (interpreter.withMachine next).keepError fault := by
  have hcall := runOnce_eq interpreter idle
  have hquiet := (Machine.keepsCalm_step interpreter.table interpreter.active calm).2
  cases hstep : Machine.step interpreter.table interpreter.active with
  | ok record next =>
    rw [hstep] at hcall
    exact .inl ⟨record, next, rfl, by rw [succeeds, hcall], by rw [afterCall, hcall]; rfl⟩
  | error failure next =>
    cases failure with
    | panic => exact absurd hstep (hquiet next)
    | fault fault =>
      rw [hstep] at hcall
      have hreport : runOnce none interpreter =
          report fault none ((interpreter.withMachine next).keepError fault) := hcall
      have hafter : interpreter.afterCall = (interpreter.withMachine next).keepError fault :=
        (congrArg Action.stateAfter hreport).trans (stateAfter_report fault none _)
      have hfails : interpreter.FailsWith fault :=
        ⟨by rw [hafter]; exact hreport, by rw [hafter]; rfl⟩
      refine .inr ⟨fault, next, rfl, ?_, hfails, hafter⟩
      rcases report_cases fault none _ with h | h <;> rw [succeeds, hreport.trans h]

/-! ## One run -/

/-- What a run of one's own makes of where its loop has come to. -/
def handedBack (interpreter : Interpreter) :
    EStateM.Result Failure Machine (Option StopReason) → EStateM.Result Failure Interpreter Bool
  | .ok none machine => .ok false { interpreter with machine }
  | .ok (some reason) machine => .ok true ({ interpreter with machine }.finish reason).release
  | .error (.fault fault) machine =>
    report fault true ((({ interpreter with machine }.finish .error).keepError fault).release)
  | .error .panic machine => .error .panic { interpreter with machine }.release

/-- A run that has begun is the turns of its machine, handed back. -/
theorem run_of_begun {interpreter begun : Interpreter} {start : Option UInt32}
    (began : beginRun start interpreter = .ok () begun) (cancels : Nat → Bool) (limit : Nat) :
    run start cancels limit interpreter = begun.handedBack
      (Machine.turns begun.table cancels 0 limit
        (begun.alterRegisters Registers.resume).machine) := by
  obtain ⟨machine, table, config, error, reason, worker⟩ := begun
  rw [run_eq_carryOn]
  simp only [carryOn, began, onMachine, alterRegisters, alterMachine]
  generalize Machine.turns table cancels 0 limit _ = outcome
  rcases outcome with ⟨_ | reason, next⟩ | ⟨fault | _, next⟩ <;> rfl

/-! ## Calls in a row -/

/-- No call is active, and no hook panics. -/
structure Rests (interpreter : Interpreter) : Prop where
  idle : interpreter.machine.control.running = false
  calm : interpreter.machine.hooks.Calm

/-- An interpreter at rest is at rest after a call. -/
theorem Rests.afterCall {interpreter : Interpreter} (h : interpreter.Rests) :
    interpreter.afterCall.Rests := by
  have hcalm := (Machine.keepsCalm_step interpreter.table interpreter.active h.calm).1
  rcases call_cases interpreter h.idle h.calm with
    ⟨record, next, hstep, -, hafter⟩ | ⟨fault, next, hstep, -, -, hafter⟩ <;>
    rw [hstep] at hcalm <;> rw [hafter] <;> exact ⟨rfl, hcalm⟩

/-- An interpreter at rest is at rest after any number of calls. -/
theorem Rests.afterCalls {interpreter : Interpreter} (h : interpreter.Rests) (calls : Nat) :
    (interpreter.afterCalls calls).Rests := by
  induction calls with
  | zero => exact h
  | succ calls ih => exact ih.afterCall

/-- A call keeps the table. -/
theorem table_afterCall {interpreter : Interpreter} (h : interpreter.Rests) :
    interpreter.afterCall.table = interpreter.table := by
  rcases call_cases interpreter h.idle h.calm with
    ⟨record, next, -, -, hafter⟩ | ⟨fault, next, -, -, -, hafter⟩ <;> rw [hafter] <;> rfl

/-- Any number of calls keep the table. -/
theorem table_afterCalls {interpreter : Interpreter} (h : interpreter.Rests) (calls : Nat) :
    (interpreter.afterCalls calls).table = interpreter.table := by
  induction calls with
  | zero => rfl
  | succ calls ih => exact (table_afterCall (h.afterCalls calls)).trans ih

/-- A call that succeeds keeps no error. -/
theorem lastError_afterCall {interpreter : Interpreter} (h : interpreter.Rests)
    (hsucceeds : interpreter.succeeds = true) :
    interpreter.afterCall.lastError = interpreter.lastError := by
  rcases call_cases interpreter h.idle h.calm with
    ⟨record, next, -, -, hafter⟩ | ⟨fault, next, -, hfails, -, -⟩
  · rw [hafter]
    rfl
  · rw [hsucceeds] at hfails
    cases hfails

/-- Calls that go on keep the last error. -/
theorem lastError_afterCalls {interpreter : Interpreter} (h : interpreter.Rests) {calls : Nat}
    (onward : ∀ k < calls, (interpreter.afterCalls k).GoesOn) :
    (interpreter.afterCalls calls).lastError = interpreter.lastError := by
  induction calls with
  | zero => rfl
  | succ calls ih =>
    have last := lastError_afterCall (h.afterCalls calls) (onward calls calls.lt_succ_self).succeeds
    exact last.trans (ih fun k hk => onward k (Nat.lt_succ_of_lt hk))

/-- A step that starts without a request for cancellation ends with one exactly when a hook asks for
it during the call. -/
theorem cancelled_iff_cancelsItself {interpreter : Interpreter} (h : interpreter.Rests)
    {machine next : Machine} {record : Record} (alike : machine.Alike interpreter.machine)
    (control : machine.control = { running := true, cancelled := false })
    (hstep : Machine.step interpreter.table machine = .ok record next) :
    next.control.cancelled = true ↔ interpreter.CancelsItself := by
  let unasked := interpreter.alterControl Control.reset
  have rests : unasked.Rests := ⟨h.idle, h.calm⟩
  have same : Machine.AlikeUnder Eq unasked.active machine :=
    ⟨⟨alike.core.symm, alike.hooks.symm, alike.log.symm, alike.trace.symm⟩, control.symm⟩
  have hmatch := Machine.simulates_step Machine.controlRelation_eq interpreter.table
    unasked.active machine same
  rw [hstep] at hmatch
  obtain ⟨last, hlast, -, hcontrol⟩ := hmatch.of_ok
  have hafter : unasked.afterCall.machine.control = last.control.release := by
    rcases call_cases unasked rests.idle rests.calm with
      ⟨record', next', hstep', -, hafter⟩ | ⟨fault, next', hstep', -, -, -⟩
    · rw [hafter]
      have both := hlast.symm.trans hstep'
      injection both with _ hnext
      rw [hnext]
      rfl
    · cases hlast.symm.trans hstep'
  unfold CancelsItself
  rw [hafter, ← hcontrol]
  rfl

/-- A step of a machine that is alike, with a call active and no cancellation requested, goes as the
next call does: it succeeds or fails with it, and asks for a cancellation when a hook does. -/
theorem step_cases {interpreter : Interpreter} (h : interpreter.Rests) {machine : Machine}
    (alike : machine.Alike interpreter.machine)
    (control : machine.control = { running := true, cancelled := false }) :
    (∃ record next, Machine.step interpreter.table machine = .ok record next ∧
        next.Alike interpreter.afterCall.machine ∧ next.control.running = true ∧
        (next.control.cancelled = true ↔ interpreter.CancelsItself) ∧
        interpreter.succeeds = true) ∨
      ∃ fault next, Machine.step interpreter.table machine = .error (.fault fault) next ∧
        next.Alike interpreter.afterCall.machine ∧ interpreter.FailsWith fault := by
  have active : Machine.AlikeUnder Machine.BothRunning machine interpreter.active :=
    ⟨⟨alike.core, alike.hooks, alike.log, alike.trace⟩, by rw [control], rfl⟩
  have hmatch := Machine.simulates_step Machine.controlRelation_bothRunning interpreter.table
    machine interpreter.active active
  rcases call_cases interpreter h.idle h.calm with
    ⟨record, last, hstep, hsucceeds, hafter⟩ | ⟨fault, last, hstep, -, hfails, hafter⟩
  · rw [hstep] at hmatch
    obtain ⟨next, hnext, halike, hrunning, -⟩ := hmatch.of_ok
    have hcancelled := cancelled_iff_cancelsItself h alike control hnext
    refine .inl ⟨record, next, hnext, ?_, hrunning, hcancelled, hsucceeds⟩
    rw [hafter]
    exact ⟨halike.core, halike.hooks, halike.log, halike.trace⟩
  · rw [hstep] at hmatch
    obtain ⟨next, hnext, halike, -⟩ := hmatch.of_error
    refine .inr ⟨fault, next, hnext, ?_, hfails⟩
    rw [hafter]
    exact ⟨halike.core, halike.hooks, halike.log, halike.trace⟩

end W65C816.Interpreter
