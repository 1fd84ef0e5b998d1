import W65C816.Interpreter.Concurrent
import W65C816.Proofs.Execution.Machine

/-!
# Sessions of requests

A session is a list of requests to one interpreter: calls by its driver, the turns of its worker in
between, a cancellation from outside, and the bus and the hooks replaced. A run with a limit that it
reaches is a run seen halfway, so a session can stop between any two instructions.

`Request.within_perform` is the step lemma and `Request.relation_performAll` the run lemma for laws
of the registers: a relation that every instruction obeys holds between the registers before and
after any session.
-/

set_option autoImplicit false

namespace W65C816

/-! ## Requests -/

/-- Something that is asked of an interpreter, or happens to it. -/
inductive Request where
  | runOnce (start : Option UInt32)
  /-- Run, with cancellations requested before some of the turns, and look after `limit` turns. -/
  | run (start : Option UInt32) (cancels : Nat → Bool) (limit : Nat)
  /-- Hand a run to a worker, with what is in the way of starting one. -/
  | spawn (start : Option UInt32) (obstacle : Option String := none)
  /-- The worker takes its next turn. -/
  | advance
  | wait (limit : Nat)
  /-- Request a cancellation and wait for the worker. -/
  | stop (limit : Nat)
  | cancel
  /-- The calls from here on are made with another bus. -/
  | attach (bus : Bus)
  /-- Hooks were registered or removed. -/
  | install (hooks : HookTable)

/-- What a request is answered. -/
inductive Answer where
  | done
  | instruction (record : Option Record)
  /-- Whether what was waited for has ended. -/
  | ended (finished : Bool)

namespace Request

/-- Carries out a request. -/
def perform : Request → Call Answer
  | .runOnce start => Answer.instruction <$> Interpreter.runOnce start
  | .run start cancels limit => Answer.ended <$> Interpreter.run start cancels limit
  | .spawn start obstacle => (fun _ => .done) <$> Interpreter.spawn start obstacle
  | .advance => fun interpreter => .ok .done interpreter.advance
  | .wait limit => Answer.ended <$> Interpreter.wait limit
  | .stop limit => Answer.ended <$> Interpreter.stop limit
  | .cancel => fun interpreter => .ok .done interpreter.cancel
  | .attach bus => fun interpreter =>
    .ok .done (interpreter.alterMachine fun machine =>
      { machine with core := { machine.core with bus } })
  | .install hooks => fun interpreter =>
    .ok .done (interpreter.alterMachine fun machine => { machine with hooks })

/-- The interpreter behind a session of requests, each of which may succeed or fail. -/
def performAll : List Request → Interpreter → Interpreter
  | [], interpreter => interpreter
  | request :: rest, interpreter =>
    performAll rest (Action.stateAfter (request.perform interpreter))

end Request

/-! ## The interpreter under a law -/

namespace Interpreter

variable {relation : Registers → Registers → Prop} {α β : Type}

/-- The registers of the interpreter that the call leaves behind are related to those of the
interpreter that it began with. -/
abbrev Within (relation : Registers → Registers → Prop) (call : Call α) : Prop :=
  Action.Within
    (fun interpreter next : Interpreter => relation interpreter.registers next.registers) call

/-- Changing the answer of a call does not touch the registers. -/
theorem within_map (change : α → β) {call : Call α} (h : Within relation call) :
    Within relation (change <$> call) := by
  intro interpreter
  have hcall := h interpreter
  change relation _ (Action.stateAfter (EStateM.map change call interpreter)).registers
  unfold EStateM.map
  cases found : call interpreter <;> rw [found] at hcall <;> exact hcall

/-- A call on the machine stays within a law if its action does. -/
theorem within_onMachine {action : DispatchTable → MachineAction α}
    (h : ∀ table, Machine.Within relation (action table)) :
    Within relation (onMachine action) := by
  rintro ⟨machine, table, config, lastError, stopReason, worker⟩
  have haction := h table machine
  unfold onMachine
  rw [Action.stateAfter_place]
  exact haction

/-- Releasing an interpreter keeps the registers. -/
@[simp] theorem registers_release (interpreter : Interpreter) :
    interpreter.release.registers = interpreter.registers := rfl

/-- Noting the reason to stop keeps the registers. -/
@[simp] theorem registers_finish (reason : StopReason) (interpreter : Interpreter) :
    (interpreter.finish reason).registers = interpreter.registers := rfl

/-- Recording an error keeps the registers. -/
@[simp] theorem registers_keepError (fault : Fault) (interpreter : Interpreter) :
    (interpreter.keepError fault).registers = interpreter.registers := rfl

/-- Concluding a worker keeps the registers. -/
@[simp] theorem registers_conclude (outcome : Except Fault Unit) (interpreter : Interpreter) :
    (interpreter.conclude outcome).registers = interpreter.registers := rfl

/-- A change of the registers changes the registers. -/
@[simp] theorem registers_alterRegisters (change : Registers → Registers)
    (interpreter : Interpreter) :
    (interpreter.alterRegisters change).registers = change interpreter.registers := rfl

/-- Beginning a call keeps the registers. -/
theorem registers_begin (interpreter : Interpreter) :
    (Action.stateAfter (begin interpreter)).registers = interpreter.registers := by
  unfold begin
  split <;> rfl

/-- Collecting from the worker keeps the registers. -/
theorem registers_collect (interpreter : Interpreter) :
    (Action.stateAfter (collect interpreter)).registers = interpreter.registers := by
  unfold collect
  split
  · split <;> rfl
  · rfl

/-- Starting at an address stays within the laws of runs. -/
theorem relation_startAt (law : Registers.RunLaw relation) (r : Registers)
    (start : Option UInt32) : relation r (r.startAt start) := by
  cases start with
  | none => exact law.refl r
  | some address => exact law.jumpTo r address

/-- A call of one instruction stays within the laws of runs. -/
theorem within_runOnce (law : Registers.RunLaw relation) (start : Option UInt32) :
    Within relation (runOnce start) := by
  intro interpreter
  have hbegin := registers_begin interpreter
  rw [runOnce_eq_carryOut]
  unfold carryOut
  cases begun : begin interpreter with
  | error failure next =>
    rw [begun] at hbegin
    exact hbegin ▸ law.refl interpreter.registers
  | ok _ next =>
    rw [begun] at hbegin
    have hstart : relation interpreter.registers
        (next.alterRegisters fun r => r.startAt start).registers :=
      hbegin ▸ relation_startAt law next.registers start
    have hstep := law.trans hstart (within_onMachine (Machine.within_step law) _)
    simp only []
    split <;> next found =>
      rw [found] at hstep
      simpa using hstep

/-- Beginning a run stays within its laws. -/
theorem within_beginRun (law : Registers.RunLaw relation) (start : Option UInt32) :
    Within relation (beginRun start) := by
  intro interpreter
  have hbegin := registers_begin interpreter
  unfold beginRun
  cases begun : begin interpreter with
  | error failure next =>
    rw [begun] at hbegin
    exact hbegin ▸ law.refl interpreter.registers
  | ok _ next =>
    rw [begun] at hbegin
    have hcollect := (registers_collect next).trans hbegin
    simp only []
    split
    · next found =>
      rw [found] at hcollect
      exact hcollect ▸ law.refl interpreter.registers
    · next found =>
      rw [found] at hcollect
      exact hcollect ▸ relation_startAt law _ start

/-- A run stays within its laws, wherever it is looked at. -/
theorem within_run (law : Registers.RunLaw relation) (start : Option UInt32)
    (cancels : Nat → Bool) (limit : Nat) : Within relation (run start cancels limit) := by
  intro interpreter
  have hbegin := within_beginRun law start interpreter
  rw [run_eq_carryOn]
  unfold carryOn
  cases begun : beginRun start interpreter with
  | error failure next =>
    rw [begun] at hbegin
    exact hbegin
  | ok _ next =>
    rw [begun] at hbegin
    have hresume : relation next.registers (next.alterRegisters Registers.resume).registers :=
      law.control next.registers false false _
    have hturns := law.trans (law.trans hbegin hresume)
      (within_onMachine (fun table => Machine.within_turns law table cancels 0 limit) _)
    simp only []
    split <;> next found =>
      rw [found] at hturns
      simpa using hturns

/-- Spawning a run stays within its laws. -/
theorem within_spawn (law : Registers.RunLaw relation) (start : Option UInt32)
    (obstacle : Option String) : Within relation (spawn start obstacle) := by
  intro interpreter
  have hbegin := within_beginRun law start interpreter
  unfold spawn
  split <;> next found =>
    rw [found] at hbegin
    first
      | exact hbegin
      | cases obstacle <;> exact hbegin

/-- A turn of the worker, with what it leaves behind when the run ends. -/
theorem relation_turn (law : Registers.RunLaw relation) (interpreter : Interpreter) :
    relation interpreter.registers interpreter.turn.registers := by
  have hturn := within_onMachine (Machine.within_turn law) interpreter
  rw [turn_eq]
  split <;> next found =>
    rw [found] at hturn
    first
      | exact hturn
      | simp only []
        split <;> exact hturn

/-- A turn of the worker stays within the laws of runs. -/
theorem relation_advance (law : Registers.RunLaw relation) (interpreter : Interpreter) :
    relation interpreter.registers interpreter.advance.registers := by
  unfold advance
  split
  · next machine _ _ _ _ => exact law.control machine.registers false false _
  · exact relation_turn law _
  · exact law.refl interpreter.registers

/-- The turns of the worker stay within the laws of runs. -/
theorem relation_settle (law : Registers.RunLaw relation) (limit : Nat)
    (interpreter : Interpreter) :
    relation interpreter.registers (settle limit interpreter).registers := by
  induction limit generalizing interpreter with
  | zero => exact law.refl interpreter.registers
  | succ limit ih =>
    unfold settle
    split
    · exact law.trans (relation_advance law interpreter) (ih interpreter.advance)
    · exact law.refl interpreter.registers

/-- Waiting stays within the laws of runs. -/
theorem within_wait (law : Registers.RunLaw relation) (limit : Nat) :
    Within relation (wait limit) := by
  intro interpreter
  have hsettle := relation_settle law limit interpreter
  have hcollect := registers_collect (settle limit interpreter)
  rw [← hcollect] at hsettle
  unfold wait
  simp only []
  split
  · exact hcollect ▸ hsettle
  · split <;> next found => rw [found] at hsettle; exact hsettle

end Interpreter

/-! ## Sessions under a law -/

namespace Request

variable {relation : Registers → Registers → Prop}

/-- One request does to the registers what instructions do, and moves the program. -/
theorem within_perform (law : Registers.RunLaw relation) (request : Request) :
    Interpreter.Within relation request.perform := by
  cases request with
  | runOnce start => exact Interpreter.within_map _ (Interpreter.within_runOnce law start)
  | run start cancels limit =>
    exact Interpreter.within_map _ (Interpreter.within_run law start cancels limit)
  | spawn start obstacle =>
    exact Interpreter.within_map _ (Interpreter.within_spawn law start obstacle)
  | advance => exact fun interpreter => Interpreter.relation_advance law interpreter
  | wait limit => exact Interpreter.within_map _ (Interpreter.within_wait law limit)
  | stop limit =>
    refine Interpreter.within_map _ fun interpreter => ?_
    exact Interpreter.within_wait law limit interpreter.cancel
  | cancel | attach bus | install hooks =>
    exact fun interpreter => law.refl interpreter.registers

/-- A session of any length, by induction over its requests. -/
theorem relation_performAll (law : Registers.RunLaw relation) (requests : List Request)
    (interpreter : Interpreter) :
    relation interpreter.registers (performAll requests interpreter).registers := by
  induction requests generalizing interpreter with
  | nil => exact law.refl interpreter.registers
  | cons request rest ih => exact law.trans (within_perform law request interpreter) (ih _)

end Request

end W65C816
