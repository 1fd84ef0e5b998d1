import W65C816.Proofs.Execution.Events
import W65C816.Proofs.Interpreter.Delivery
import W65C816.Proofs.Interpreter.Lifecycle

/-!
# What happens in a session

Every request is a way of the interpreter's machine: `Request.events` lists what happens on it, and
`Request.proceeds_perform` says so for requests of every kind, those that are refused and those that
fail included. `Request.history` is the past of a session, with someone asking before each request
and after the last one, and `Request.proceeds_history` is what the laws about it start from.
-/

set_option autoImplicit false

namespace W65C816

namespace Interpreter

/-! ## The worker -/

/-- What happens when the worker takes its next turn. -/
def workEvents (interpreter : Interpreter) : List Event :=
  match interpreter.worker with
  | some .looping => interpreter.machine.turnEvents interpreter.table
  | some .starting | some (.finished _) | none => []

/-- What happens in the turns that a worker is let take. -/
def settleEvents : Nat → Interpreter → List Event
  | 0, _ => []
  | limit + 1, interpreter =>
    if interpreter.isBusy then
      interpreter.workEvents ++ settleEvents limit interpreter.advance
    else []

/-- The machine of one interpreter proceeds to that of another one, which has the same table. -/
structure Proceeds (events : List Event) (interpreter next : Interpreter) : Prop where
  machine : Machine.Proceeds interpreter.table events interpreter.machine next.machine
  table : next.table = interpreter.table

variable {interpreter next last : Interpreter} {stage : Stage} {events more : List Event}

/-- No events are needed where the machine is the same. -/
theorem Proceeds.of_machine (machine : next.machine = interpreter.machine)
    (table : next.table = interpreter.table) : Proceeds [] interpreter next :=
  ⟨machine ▸ .rests _, table⟩

/-- Events that follow one another bring what they bring together. -/
theorem Proceeds.trans (h : Proceeds events interpreter next) (h' : Proceeds more next last) :
    Proceeds (events ++ more) interpreter last :=
  ⟨h.machine.trans (h.table ▸ h'.machine), h'.table.trans h.table⟩

/-- What is done with a machine that was handed on does not go on with its call if that was ended
for it. -/
theorem Proceeds.of_settled {outcome : EStateM.Result Failure Machine (Option StopReason)}
    (h : Machine.Proceeds interpreter.table events interpreter.machine
      (Machine.handedOn outcome)) :
    Proceeds events interpreter (interpreter.settled outcome) := by
  rw [← List.append_nil events]
  rcases outcome with ⟨_ | reason, machine⟩ | ⟨fault | _, machine⟩
  · exact ⟨h.trans (.rests _), rfl⟩
  · exact ⟨h.trans (.releases _), rfl⟩
  · simp only [settled]
    cases interpreter.config.policy <;> exact ⟨h.trans (.rests _), rfl⟩
  · exact ⟨h.trans (.rests _), rfl⟩

/-- Handing back the outcome of turns adds no events. -/
theorem Proceeds.of_handedBack {outcome : EStateM.Result Failure Machine (Option StopReason)}
    {machine : Machine}
    (h : Machine.Proceeds interpreter.table events machine (Machine.handedOn outcome)) :
    Proceeds events { interpreter with machine }
      (Action.stateAfter (interpreter.handedBack outcome)) := by
  rw [← List.append_nil events]
  rcases outcome with ⟨_ | reason, machine⟩ | ⟨fault | _, machine⟩
  · exact ⟨h.trans (.rests _), rfl⟩
  · exact ⟨h.trans (.releases _), rfl⟩
  · simp only [handedBack, stateAfter_report]
    exact ⟨h.trans (.rests _), rfl⟩
  · exact ⟨h.trans (.rests _), rfl⟩

/-- A turn of the worker. -/
theorem proceeds_advance (h : interpreter.InStage stage) :
    Proceeds interpreter.workEvents interpreter interpreter.advance := by
  obtain ⟨machine, table, config, error, reason, worker⟩ := interpreter
  rcases worker with _ | _ | _ | outcome
  · exact .of_machine rfl rfl
  · exact ⟨.resumes machine, rfl⟩
  · have working := running_of_busy h.stage rfl
    subst working
    let looping : Interpreter := ⟨machine, table, config, error, reason, some .looping⟩
    have turned : looping.advance = looping.settled (Machine.turn table machine) :=
      turn_eq_settled rfl
    rw [turned]
    exact .of_settled (Machine.proceeds_turn table h.stage.1)
  · exact .of_machine rfl rfl

/-- Any number of turns of the worker. -/
theorem proceeds_settle (h : interpreter.InStage stage) (limit : Nat) :
    Proceeds (settleEvents limit interpreter) interpreter (settle limit interpreter) := by
  induction limit generalizing interpreter stage with
  | zero => exact .of_machine rfl rfl
  | succ limit ih =>
    cases busy : interpreter.isBusy with
    | false =>
      rw [settleEvents, settle_of_quiet busy, if_neg (Bool.eq_false_iff.mp busy)]
      exact .of_machine rfl rfl
    | true =>
      rw [settleEvents, settle, if_pos busy, if_pos busy]
      have working := running_of_busy h.stage busy
      subst working
      rcases h.advance with after | ⟨failure, after⟩ <;>
        exact (proceeds_advance h).trans (ih after)

/-- Waiting brings the events of the turns that the worker has time for. -/
theorem proceeds_wait (h : interpreter.InStage stage) (limit : Nat) :
    Proceeds (settleEvents limit interpreter) interpreter
      (Action.stateAfter (wait limit interpreter)) := by
  have settled := proceeds_settle h limit
  rw [stateAfter_wait]
  split
  · exact settled
  · exact ⟨settled.machine, settled.table⟩

/-! ## Calls -/

/-- One instruction, on an interpreter that is idle. -/
theorem proceeds_runOnce (idle : interpreter.machine.control.running = false)
    (start : Option UInt32) :
    Proceeds (.once :: (interpreter.machine.onceFrom start).stepEvents interpreter.table)
      interpreter (Action.stateAfter (runOnce start interpreter)) := by
  have called : Machine.Proceeds interpreter.table _ _ _ := .calls idle start
  have began := begin_of_idle idle
  obtain ⟨⟨⟨r, bus⟩, hooks, ⟨running, asked⟩, log, trace⟩, table, config, error, reason, worker⟩ :=
    interpreter
  simp only [runOnce_eq_carryOut, carryOut, began, active, alterRegisters, alterMachine, onMachine]
  change Machine.Proceeds table _ _ (Machine.released (Action.stateAfter (Machine.step table
    ⟨⟨r.startAt start, bus⟩, hooks, ⟨true, asked⟩, log, trace⟩))) at called
  generalize Machine.step table ⟨⟨r.startAt start, bus⟩, hooks, ⟨true, asked⟩, log, trace⟩ =
    outcome at called
  rcases outcome with ⟨record, next⟩ | ⟨fault | _, next⟩
  · exact ⟨called, rfl⟩
  · simp only [Action.place, stateAfter_report]
    exact ⟨called, rfl⟩
  · exact ⟨called, rfl⟩

/-- A run of one's own, on an interpreter that rests and has nothing to be collected. -/
theorem proceeds_run (resting : interpreter.At (.resting none)) (start : Option UInt32)
    (cancels : Nat → Bool) (limit : Nat) :
    Proceeds (.run :: Machine.turnsEvents interpreter.table cancels 0 limit
        (interpreter.launched start))
      interpreter (Action.stateAfter (run start cancels limit interpreter)) := by
  let first : Interpreter := { interpreter.cleared with machine := interpreter.launched start }
  have begins : Proceeds [.run] interpreter first :=
    ⟨(Machine.Proceeds.begins resting.1 start).trans (.resumes _), rfl⟩
  have active : (interpreter.launched start).control.running = true := rfl
  have turns := Machine.proceeds_turns interpreter.table cancels 0 limit active
  have runs : Proceeds _ first _ := .of_handedBack turns
  rw [run_eq_handedBack resting]
  exact begins.trans runs

/-- A run does not begin, and then nothing happens to the machine, or the interpreter rests and has
nothing to be collected. -/
theorem InStage.beginRun_cases (h : interpreter.InStage stage) (start : Option UInt32) :
    (∃ failure next, beginRun start interpreter = .error failure next ∧
        Proceeds [] interpreter next) ∨
      interpreter.At (.resting none) := by
  cases running : interpreter.machine.control.running with
  | true =>
    refine .inl ⟨.fault .alreadyRunning, interpreter, ?_, .of_machine rfl rfl⟩
    simp only [beginRun, begin_of_running running, Fault.alreadyRunning]
  | false =>
    have resting := h.resting_of_idle running
    cases waiting : interpreter.pending with
    | none => exact .inr (waiting ▸ resting)
    | some fault =>
      rw [waiting] at resting
      exact .inl ⟨_, _, beginRun_of_pending resting start, .of_machine rfl rfl⟩

end Interpreter

namespace Request

open Interpreter

/-- What happens during a request. -/
def events : Request → Interpreter → List Event
  | .runOnce start, interpreter =>
    match begin interpreter with
    | .error _ _ => []
    | .ok _ next =>
      .once :: (next.alterRegisters fun r => r.startAt start).machine.stepEvents next.table
  | .run start cancels limit, interpreter =>
    match beginRun start interpreter with
    | .error _ _ => []
    | .ok _ next =>
      .run :: Machine.turnsEvents next.table cancels 0 limit
        (next.alterRegisters Registers.resume).machine
  | .spawn start _, interpreter =>
    match beginRun start interpreter with
    | .error _ _ => []
    | .ok _ _ => [.run]
  | .advance, interpreter => interpreter.workEvents
  | .wait limit, interpreter => settleEvents limit interpreter
  | .stop limit, interpreter => .request :: settleEvents limit interpreter.cancel
  | .cancel, _ => [.request]
  | .attach _, _ | .install _, _ => []

/-- What happens in a session, where someone asks before each request and after the last one what
the interpreter is doing. -/
def history : List Request → Interpreter → List Event
  | [], interpreter => [.seen interpreter.phase]
  | request :: rest, interpreter =>
    .seen interpreter.phase :: request.events interpreter ++
      history rest (Action.stateAfter (request.perform interpreter))

variable {interpreter : Interpreter} {stage : Stage}

/-- Every request is a way of the interpreter's machine. -/
theorem proceeds_perform (h : interpreter.InStage stage) (request : Request) :
    Interpreter.Proceeds (request.events interpreter) interpreter
      (Action.stateAfter (request.perform interpreter)) := by
  cases request with
  | runOnce start =>
    rw [perform, stateAfter_map]
    cases running : interpreter.machine.control.running with
    | true =>
      rw [events, begin_of_running running,
        (calls_of_running running start (fun _ => false) 0 none).1]
      exact .of_machine rfl rfl
    | false =>
      rw [events, begin_of_idle running]
      exact proceeds_runOnce running start
  | run start cancels limit =>
    rw [perform, stateAfter_map]
    rcases h.beginRun_cases start with ⟨failure, next, refused, nothing⟩ | resting
    · simp only [events, Interpreter.run, carryOn, refused]
      exact nothing
    · simp only [events, beginRun_of_resting resting start]
      exact proceeds_run resting start cancels limit
  | spawn start obstacle =>
    rw [perform, stateAfter_map]
    rcases h.beginRun_cases start with ⟨failure, next, refused, nothing⟩ | resting
    · simp only [events, Interpreter.spawn, refused]
      exact nothing
    · have begins : Machine.Proceeds interpreter.table _ _ _ := .begins resting.1 start
      simp only [events, Interpreter.spawn, beginRun_of_resting resting start]
      cases obstacle with
      | none => exact ⟨begins, rfl⟩
      | some why => exact ⟨begins.trans (.releases _), rfl⟩
  | advance => exact proceeds_advance h
  | wait limit =>
    rw [perform, stateAfter_map]
    exact proceeds_wait h limit
  | stop limit =>
    rw [perform, stateAfter_map]
    have asked : Interpreter.Proceeds [.request] interpreter interpreter.cancel :=
      ⟨.requests _, rfl⟩
    exact asked.trans (proceeds_wait h.cancel limit)
  | cancel => exact ⟨.requests _, rfl⟩
  | attach bus => exact ⟨.equips _ bus _, rfl⟩
  | install hooks => exact ⟨.equips _ _ hooks, rfl⟩

/-- A session is a way of the interpreter's machine. By induction over its requests. -/
theorem proceeds_history (h : interpreter.InStage stage) (requests : List Request) :
    Interpreter.Proceeds (history requests interpreter) interpreter
      (performAll requests interpreter) := by
  have asks (asked : Interpreter) : Interpreter.Proceeds [.seen asked.phase] asked asked :=
    ⟨.asks asked.machine, rfl⟩
  induction requests generalizing interpreter stage with
  | nil => exact asks interpreter
  | cons request rest ih =>
    obtain ⟨next, leads⟩ := exists_leads h request
    have performed := (asks interpreter).trans (proceeds_perform h request)
    exact performed.trans (ih leads.after)

end Request

end W65C816
