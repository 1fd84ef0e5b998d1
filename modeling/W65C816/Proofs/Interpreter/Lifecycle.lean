import W65C816.Catalog.Table
import W65C816.Proofs.Interpreter.Requests
import W65C816.Proofs.Interpreter.Stages

/-!
# The life of an interpreter

Every request leads an interpreter from one stage to another: `Request.exists_leads` says which
stages these can be, with the failure of a concurrent run that arises during the request and the one
that the request returns. Everything about a session follows from it by induction: whether the
interpreter is idle, and that each failure is returned once.
-/

set_option autoImplicit false

namespace W65C816

/-! ## Requests -/

namespace Interpreter.Stage

/-- The ways from one stage to the next, with the failure of a concurrent run that arises on the way
and the failure that is returned. -/
inductive Moves : Stage → Option Fault → Option Fault → Stage → Prop
  | stays (stage : Stage) : Moves stage none none stage
  | begins : Moves (.resting none) none none .running
  | spawns : Moves (.resting none) none none .working
  | collects (fault : Fault) : Moves (.resting (some fault)) none (some fault) (.resting none)
  | ends : Moves .working none none (.resting none)
  | fails (fault : Fault) : Moves .working (some fault) none (.resting (some fault))
  | failsAndCollects (fault : Fault) : Moves .working (some fault) (some fault) (.resting none)

/-- A failure that waits or arises is returned or waits. -/
theorem Moves.balance {stage next : Stage} {failure report : Option Fault}
    (h : Moves stage failure report next) :
    stage.pending.toList ++ failure.toList = report.toList ++ next.pending.toList := by
  cases h with
  | stays stage => exact List.append_nil _
  | begins | spawns | collects | ends | fails | failsAndCollects => rfl

end Interpreter.Stage

namespace Request

/-- The interpreter when the worker has taken the turns that come with a request. -/
def worked : Request → Interpreter → Interpreter
  | .advance, interpreter => interpreter.advance
  | .wait limit, interpreter => Interpreter.settle limit interpreter
  | .stop limit, interpreter => Interpreter.settle limit interpreter.cancel
  | _, interpreter => interpreter

/-- The failure of a concurrent run that ends during a request. -/
def failure? (request : Request) (interpreter : Interpreter) : Option Fault :=
  if interpreter.isBusy then (request.worked interpreter).pending else none

/-- Whether a request comes to collect what a worker has left behind. A run does unless it is
refused, and waiting does unless the worker is still at its run. -/
def collects (request : Request) (interpreter : Interpreter) : Bool :=
  match request with
  | .run .. | .spawn .. => !interpreter.machine.control.running
  | .wait _ | .stop _ => !(request.worked interpreter).isBusy
  | _ => false

/-- The failure of a concurrent run that a request collects. -/
def report? (request : Request) (interpreter : Interpreter) : Option Fault :=
  if request.collects interpreter then (request.worked interpreter).pending else none

/-- Whether a request is a run that is left while it is still going on. -/
def leavesRun (request : Request) (interpreter : Interpreter) : Bool :=
  match request with
  | .run start cancels limit =>
    match Interpreter.run start cancels limit interpreter with
    | .ok false _ => true
    | _ => false
  | _ => false

/-- Where a request leads to from a stage. -/
structure Leads (request : Request) (interpreter : Interpreter)
    (stage next : Interpreter.Stage) : Prop where
  after : (Action.stateAfter (request.perform interpreter)).InStage next
  moves : Interpreter.Stage.Moves stage (request.failure? interpreter)
    (request.report? interpreter) next
  running : next = .running ↔ stage = .running ∨ request.leavesRun interpreter = true

variable {interpreter : Interpreter} {stage : Interpreter.Stage} {request : Request}

/-- Changing the answer of a call leaves the interpreter that it leaves. -/
@[simp] theorem stateAfter_map {α : Type} (change : α → Answer) (call : Call α)
    (interpreter : Interpreter) :
    Action.stateAfter ((change <$> call) interpreter) = Action.stateAfter (call interpreter) := by
  change Action.stateAfter (EStateM.map change call interpreter) = _
  unfold EStateM.map
  cases call interpreter <;> rfl

/-- No run ends during a request that lets the worker take no turn. -/
theorem failure?_of_worked (h : request.worked interpreter = interpreter) :
    request.failure? interpreter = none := by
  unfold failure?
  split
  · next busy =>
    rw [h]
    exact Interpreter.pending_of_busy busy
  · rfl

/-- What a request reports is the failure that was pending when it collected it. -/
theorem report?_eq_some_iff {fault : Fault} :
    request.report? interpreter = some fault ↔
      request.collects interpreter = true ∧ (request.worked interpreter).pending = some fault := by
  unfold report?
  split
  · next granted => exact ⟨fun waiting => ⟨granted, waiting⟩, fun both => both.2⟩
  · next refused => exact ⟨nofun, fun both => absurd both.1 refused⟩

/-- A request that collects nothing reports nothing. -/
theorem report?_of_not_collects (h : request.collects interpreter = false) :
    request.report? interpreter = none := by
  rw [report?, h]
  rfl

/-- A call that fails does so whatever would be made of its answer. -/
theorem map_eq_error {α : Type} {change : α → Answer} {call : Call α} {failure : Failure}
    {next : Interpreter} (h : call interpreter = .error failure next) :
    (change <$> call) interpreter = .error failure next := by
  change EStateM.map change call interpreter = _
  unfold EStateM.map
  rw [h]

/-- What is made of an answer does not make a call fail. -/
theorem error_of_map {α : Type} {change : α → Answer} {call : Call α} {failure : Failure}
    {next : Interpreter} (h : (change <$> call) interpreter = .error failure next) :
    call interpreter = .error failure next := by
  change EStateM.map change call interpreter = _ at h
  unfold EStateM.map at h
  split at h
  · cases h
  · next found =>
    cases h
    exact found

/-- A failure that waits is returned by the next call that waits, stops or runs, and then no run
begins. -/
theorem perform_of_pending {fault : Fault} (h : interpreter.At (.resting (some fault)))
    (start : Option UInt32) (cancels : Nat → Bool) (limit : Nat) (obstacle : Option String) :
    (Request.wait limit).perform interpreter =
        .error (.fault fault) { interpreter with worker := none } ∧
      (Request.stop limit).perform interpreter =
        .error (.fault fault) { interpreter.cancel with worker := none } ∧
      (Request.run start cancels limit).perform interpreter =
        .error (.fault fault) { interpreter with worker := none } ∧
      (Request.spawn start obstacle).perform interpreter =
        .error (.fault fault) { interpreter with worker := none } := by
  have waits {asked : Interpreter} (quiet : asked.isBusy = false)
      (waiting : asked.pending = some fault) :
      Interpreter.wait limit asked = .error (.fault fault) { asked with worker := none } := by
    rw [Interpreter.wait_eq, Interpreter.settle_of_quiet quiet, quiet, waiting]
    rfl
  have begun := Interpreter.beginRun_of_pending h start
  refine ⟨map_eq_error (waits h.2.1 h.2.2), map_eq_error (waits h.2.1 h.2.2), ?_, ?_⟩
  · apply map_eq_error
    simp only [Interpreter.run, Interpreter.carryOn, begun]
  · apply map_eq_error
    simp only [Interpreter.spawn, begun]

/-- A request that fails leaves no run behind. -/
theorem leavesRun_of_error {failure : Failure} {next : Interpreter}
    (h : request.perform interpreter = .error failure next) :
    request.leavesRun interpreter = false := by
  cases request with
  | run start cancels limit => rw [leavesRun, error_of_map h]
  | _ => rfl

/-! ## Ways from stage to stage -/

/-- A request that leaves the stage as it is. -/
theorem leads_stays (after : (Action.stateAfter (request.perform interpreter)).InStage stage)
    (failure : request.failure? interpreter = none) (report : request.report? interpreter = none)
    (leaves : request.leavesRun interpreter = false) :
    request.Leads interpreter stage stage := by
  refine ⟨after, ?_, ?_⟩
  · rw [failure, report]
    exact .stays stage
  · rw [leaves]
    exact ⟨.inl, fun h => h.elim id nofun⟩

/-- A request that begins a run is refused while a call is active, and collects a failure that
waits. What is left is the run that begins when neither is in its way. -/
theorem leads_beginning (h : interpreter.InStage stage)
    (worked : request.worked interpreter = interpreter)
    (collects : request.collects interpreter = !interpreter.machine.control.running)
    (refused : interpreter.machine.control.running = true →
      request.perform interpreter = .error (.fault .alreadyRunning) interpreter)
    (collected : ∀ fault, interpreter.At (.resting (some fault)) →
      request.perform interpreter = .error (.fault fault) { interpreter with worker := none })
    (begun : interpreter.InStage (.resting none) → request.failure? interpreter = none →
      request.report? interpreter = none → ∃ next, request.Leads interpreter (.resting none) next) :
    ∃ next, request.Leads interpreter stage next := by
  have failure := failure?_of_worked worked
  cases running : interpreter.machine.control.running with
  | true =>
    have answer := refused running
    have still : request.collects interpreter = false := by
      rw [collects, running]
      rfl
    refine ⟨stage, leads_stays ?_ failure (report?_of_not_collects still)
      (leavesRun_of_error answer)⟩
    rw [answer]
    exact h
  | false =>
    cases stage with
    | running => cases h.stage.1.symm.trans running
    | working => cases h.stage.1.symm.trans running
    | resting waiting =>
      have report : request.report? interpreter = waiting := by
        rw [report?, collects, running, worked]
        exact h.stage.2.2
      cases waiting with
      | none => exact begun h failure report
      | some fault =>
        have answer := collected fault h.stage
        refine ⟨.resting none, ?_, ?_, by simp [leavesRun_of_error answer]⟩
        · rw [answer]
          exact h.withoutWorker
        · rw [failure, report]
          exact .collects fault

/-- A run leads from each stage to where it should. -/
theorem leads_run (h : interpreter.InStage stage) (start : Option UInt32) (cancels : Nat → Bool)
    (limit : Nat) :
    ∃ next, (Request.run start cancels limit).Leads interpreter stage next := by
  refine leads_beginning h rfl rfl ?_ ?_ ?_
  · intro running
    exact map_eq_error (Interpreter.calls_of_running running start cancels limit none).2.1
  · intro fault waiting
    exact (perform_of_pending waiting start cancels limit none).2.2.1
  · intro resting failure report
    rcases resting.run start cancels limit with ⟨next, outcome, after⟩ | ⟨ended, after⟩
    · refine ⟨.running, ?_, ?_, ?_⟩
      · rw [perform, stateAfter_map, outcome]
        exact after
      · rw [failure, report]
        exact .begins
      · simp [leavesRun, outcome]
    · refine ⟨.resting none, leads_stays ?_ failure report ?_⟩
      · rw [perform, stateAfter_map]
        exact after
      · rw [leavesRun]
        generalize Interpreter.run start cancels limit interpreter = outcome at ended
        rcases outcome with ⟨_ | _, last⟩ | ⟨failure, last⟩
        · exact absurd rfl (ended last)
        · rfl
        · rfl

/-- A run is handed to a worker, or there is no worker and the interpreter rests as before. -/
theorem leads_spawn (h : interpreter.InStage stage) (start : Option UInt32)
    (obstacle : Option String) :
    ∃ next, (Request.spawn start obstacle).Leads interpreter stage next := by
  refine leads_beginning h rfl rfl ?_ ?_ ?_
  · intro running
    exact map_eq_error
      (Interpreter.calls_of_running running start (fun _ => false) 0 obstacle).2.2
  · intro fault waiting
    exact (perform_of_pending waiting start (fun _ => false) 0 obstacle).2.2.2
  · intro resting failure report
    obtain ⟨next, spawned⟩ := resting.spawn start obstacle
    cases obstacle with
    | none =>
      obtain ⟨outcome, after⟩ := spawned
      refine ⟨.working, ?_, ?_, by simp [leavesRun]⟩
      · rw [perform, stateAfter_map, outcome]
        exact after
      · rw [failure, report]
        exact .spawns
    | some why =>
      obtain ⟨outcome, after⟩ := spawned
      refine ⟨.resting none, leads_stays ?_ failure report rfl⟩
      rw [perform, stateAfter_map, outcome]
      exact after

/-- A turn of the worker may end its run, and then what comes of the run waits to be collected. -/
theorem leads_advance (h : interpreter.InStage stage) :
    ∃ next, Request.advance.Leads interpreter stage next := by
  have report : Request.advance.report? interpreter = none := report?_of_not_collects rfl
  cases busy : interpreter.isBusy with
  | false =>
    have quiet := Interpreter.advance_of_quiet busy
    have after : Action.stateAfter (Request.advance.perform interpreter) = interpreter := quiet
    exact ⟨stage, leads_stays (after.symm ▸ h) (failure?_of_worked quiet) report rfl⟩
  | true =>
    obtain rfl := Interpreter.running_of_busy h.stage busy
    have failure : Request.advance.failure? interpreter = interpreter.advance.pending := by
      rw [failure?, busy]
      rfl
    rcases h.advance with working | ⟨waiting, resting⟩
    · refine ⟨.working, leads_stays working ?_ report rfl⟩
      exact failure.trans (Interpreter.pending_of_busy working.stage.2)
    · refine ⟨.resting waiting, resting, ?_, by simp [leavesRun]⟩
      rw [failure, report, resting.stage.2.2]
      cases waiting with
      | none => exact .ends
      | some fault => exact .fails fault

/-- A request to wait lets the worker take turns, and then collects what is there. It may have done
something to the interpreter before that does not concern the worker. -/
theorem leads_waiting {asked : Interpreter} (h : asked.InStage stage) {limit : Nat}
    (same : interpreter.isBusy = asked.isBusy)
    (after : Action.stateAfter (request.perform interpreter) =
      Action.stateAfter (Interpreter.wait limit asked))
    (worked : request.worked interpreter = Interpreter.settle limit asked)
    (collects : request.collects interpreter = !(request.worked interpreter).isBusy)
    (leaves : request.leavesRun interpreter = false) :
    ∃ next, request.Leads interpreter stage next := by
  rw [Interpreter.stateAfter_wait] at after
  cases busy : asked.isBusy with
  | false =>
    -- Nothing is at work, so what there is is collected at once.
    rw [Interpreter.settle_of_quiet busy] at after worked
    have failure : request.failure? interpreter = none := by
      rw [failure?, same, busy]
      rfl
    have report : request.report? interpreter = asked.pending := by
      rw [report?, collects, worked, busy]
      rfl
    rw [busy, if_neg Bool.false_ne_true] at after
    cases stage with
    | working => cases busy.symm.trans h.stage.2
    | running =>
      have nothing : asked.pending = none := by rw [Interpreter.pending, h.stage.2]
      refine ⟨.running, leads_stays ?_ failure (report.trans nothing) leaves⟩
      rw [after]
      exact ⟨h.stage.congr rfl h.stage.2.symm, h.guarded⟩
    | resting waiting =>
      have resting := h.withoutWorker
      rw [← after] at resting
      rw [h.stage.2.2] at report
      cases waiting with
      | none => exact ⟨.resting none, leads_stays resting failure report leaves⟩
      | some fault =>
        refine ⟨.resting none, resting, ?_, by simp [leaves]⟩
        rw [failure, report]
        exact .collects fault
  | true =>
    -- What fails now has not waited before, and is collected if the worker ends in time.
    obtain rfl := Interpreter.running_of_busy h.stage busy
    have failure : request.failure? interpreter = (Interpreter.settle limit asked).pending := by
      rw [failure?, same, busy, worked]
      rfl
    rcases h.settle limit with working | ⟨waiting, resting⟩
    · rw [working.stage.2, if_pos rfl] at after
      have still : request.collects interpreter = false := by
        rw [collects, worked, working.stage.2]
        rfl
      refine ⟨.working, leads_stays (after ▸ working) ?_ (report?_of_not_collects still) leaves⟩
      exact failure.trans (Interpreter.pending_of_busy working.stage.2)
    · have report : request.report? interpreter = waiting := by
        rw [report?, collects, worked, resting.stage.2.1]
        exact resting.stage.2.2
      rw [resting.stage.2.1, if_neg Bool.false_ne_true] at after
      refine ⟨.resting none, after ▸ resting.withoutWorker, ?_, by simp [leaves]⟩
      rw [failure, report, resting.stage.2.2]
      cases waiting with
      | none => exact .ends
      | some fault => exact .failsAndCollects fault

/-- Every request leads from a stage to a stage. -/
theorem exists_leads (h : interpreter.InStage stage) (request : Request) :
    ∃ next, request.Leads interpreter stage next := by
  cases request with
  | runOnce start =>
    have after : (Action.stateAfter ((Request.runOnce start).perform interpreter)).InStage
        stage := by
      rw [perform, stateAfter_map]
      exact h.runOnce start
    exact ⟨stage, leads_stays after (failure?_of_worked rfl) (report?_of_not_collects rfl) rfl⟩
  | run start cancels limit => exact leads_run h start cancels limit
  | spawn start obstacle => exact leads_spawn h start obstacle
  | advance => exact leads_advance h
  | wait limit => exact leads_waiting h rfl (stateAfter_map _ _ _) rfl rfl rfl
  | stop limit => exact leads_waiting h.cancel rfl (stateAfter_map _ _ _) rfl rfl rfl
  | cancel =>
    exact ⟨stage, leads_stays h.cancel (failure?_of_worked rfl) (report?_of_not_collects rfl) rfl⟩
  | attach bus | install hooks =>
    refine ⟨stage, leads_stays ⟨?_, ?_⟩ (failure?_of_worked rfl) (report?_of_not_collects rfl) rfl⟩
    · exact h.stage.congr rfl rfl
    · exact h.guarded

/-! ## Answers -/

/-- Whether a request carries out instructions itself, which may fail. -/
def executes : Request → Bool
  | .runOnce _ | .run .. => true
  | _ => false

/-- The failure that a request collects is what it returns. Apart from the turns of the worker that
came with the request, all that changes is that the failure is not waiting any more; a run that
returns a failure of an earlier one has not begun. -/
theorem perform_of_report (h : interpreter.InStage stage) {fault : Fault}
    (report : request.report? interpreter = some fault) :
    request.perform interpreter =
      .error (.fault fault) { request.worked interpreter with worker := none } := by
  obtain ⟨granted, waiting⟩ := report?_eq_some_iff.mp report
  have resting (idle : (!interpreter.machine.control.running) = true)
      (waiting : interpreter.pending = some fault) :
      interpreter.At (.resting (some fault)) :=
    waiting ▸ h.resting_of_idle ((Bool.not_eq_true' _).mp idle)
  cases request with
  | run start cancels limit =>
    exact (perform_of_pending (resting granted waiting) start cancels limit none).2.2.1
  | spawn start obstacle =>
    exact (perform_of_pending (resting granted waiting) start (fun _ => false) 0 obstacle).2.2.2
  | wait limit | stop limit =>
    have quiet := (Bool.not_eq_true' _).mp granted
    exact map_eq_error (Interpreter.wait_eq_error_iff.mpr ⟨quiet, fault, waiting, rfl, rfl⟩)
  | runOnce start | advance | cancel | attach bus | install hooks => cases granted

/-- The failure of a request for a worker that is not to be had. -/
def Unmanned (request : Request) (failure : Failure) : Prop :=
  ∃ start why, request = .spawn start (some why) ∧
    failure = .fault (.invalidOperation (.noWorker why))

/-- A request that fails without carrying out instructions itself was refused, returns what it has
collected, or wants a worker when there is none. -/
theorem report_of_perform (h : interpreter.InStage stage) {failure : Failure} {next : Interpreter}
    (failed : request.perform interpreter = .error failure next) (own : request.executes = false) :
    (interpreter.machine.control.running = true ∧ failure = .fault .alreadyRunning) ∨
      (∃ fault, failure = .fault fault ∧ request.report? interpreter = some fault) ∨
      request.Unmanned failure := by
  cases request with
  | runOnce start | run start cancels limit => cases own
  | spawn start obstacle =>
    cases running : interpreter.machine.control.running with
    | true =>
      have refused :=
        (Interpreter.calls_of_running running start (fun _ => false) 0 obstacle).2.2
      cases (map_eq_error refused).symm.trans failed
      exact .inl ⟨rfl, rfl⟩
    | false =>
      have resting := h.resting_of_idle running
      cases waiting : interpreter.pending with
      | none =>
        rw [waiting] at resting
        obtain ⟨last, spawned⟩ := Interpreter.InStage.spawn ⟨resting, h.guarded⟩ start obstacle
        cases obstacle with
        | none => cases spawned.1.symm.trans (error_of_map failed)
        | some why =>
          cases spawned.1.symm.trans (error_of_map failed)
          exact .inr (.inr ⟨start, why, rfl, rfl⟩)
      | some fault =>
        rw [waiting] at resting
        have answer := (perform_of_pending resting start (fun _ => false) 0 obstacle).2.2.2
        cases answer.symm.trans failed
        have granted : (Request.spawn start obstacle).collects interpreter = true := by
          rw [collects, running]
          rfl
        exact .inr (.inl ⟨fault, rfl, report?_eq_some_iff.mpr ⟨granted, waiting⟩⟩)
  | wait limit | stop limit =>
    obtain ⟨quiet, fault, waiting, same, -⟩ :=
      Interpreter.wait_eq_error_iff.mp (error_of_map failed)
    have granted := (Bool.not_eq_true' _).mpr quiet
    exact .inr (.inl ⟨fault, same, report?_eq_some_iff.mpr ⟨granted, waiting⟩⟩)
  | advance | cancel | attach bus | install hooks => cases failed

/-! ## Sessions -/

/-- Whether a run of the session was left while it was still going on. -/
def leftRunning : List Request → Interpreter → Bool
  | [], _ => false
  | request :: rest, interpreter =>
    request.leavesRun interpreter ||
      leftRunning rest (Action.stateAfter (request.perform interpreter))

/-- The failures of concurrent runs that end in the session, in order. -/
def failures : List Request → Interpreter → List Fault
  | [], _ => []
  | request :: rest, interpreter =>
    (request.failure? interpreter).toList ++
      failures rest (Action.stateAfter (request.perform interpreter))

/-- The failures that the requests of the session collect, in order. -/
def reports : List Request → Interpreter → List Fault
  | [], _ => []
  | request :: rest, interpreter =>
    (request.report? interpreter).toList ++
      reports rest (Action.stateAfter (request.perform interpreter))

/-- A session leads from a stage to a stage, and what fails on the way is returned on the way or is
waiting in the end. By induction over the requests. -/
theorem exists_stage_performAll (h : interpreter.InStage stage) (requests : List Request) :
    ∃ next, (performAll requests interpreter).InStage next ∧
      (next = .running ↔ stage = .running ∨ leftRunning requests interpreter = true) ∧
      stage.pending.toList ++ failures requests interpreter =
        reports requests interpreter ++ next.pending.toList := by
  induction requests generalizing interpreter stage with
  | nil => exact ⟨stage, h, ⟨.inl, fun h => h.elim id nofun⟩, List.append_nil _⟩
  | cons request rest ih =>
    obtain ⟨middle, leads⟩ := exists_leads h request
    obtain ⟨next, after, running, balance⟩ := ih leads.after
    refine ⟨next, after, ?_, ?_⟩
    · rw [running, leads.running, leftRunning, Bool.or_eq_true, or_assoc]
    · rw [failures, reports, ← List.append_assoc, leads.moves.balance, List.append_assoc, balance,
        List.append_assoc]

end Request

namespace Interpreter

/-- A new interpreter rests, with no failure pending. -/
theorem inStage_create (core : Core) (table : DispatchTable) (config : Config) :
    (create core table config).InStage (.resting none) := by
  refine ⟨⟨rfl, rfl, rfl⟩, ?_⟩
  intro call member
  have nothing : call ∈ ([] : List HookCall) := member
  cases nothing

/-- What waits to be collected after a turn of the worker: the fault of an instruction, if faults
are propagated, or the panic of a hook. -/
theorem pending_advance {interpreter : Interpreter} (h : interpreter.worker = some .looping) :
    interpreter.advance.pending =
      match onMachine Machine.turn interpreter with
      | .ok _ _ => none
      | .error (.fault fault) _ =>
        if interpreter.config.policy = .propagate then some fault else none
      | .error .panic _ => some (.invalidOperation .workerPanicked) := by
  obtain ⟨machine, table, config, error, reason, worker⟩ := interpreter
  cases h
  simp only [advance, turn_eq]
  rcases onMachine_cases Machine.keepsActive_turn
    ⟨machine, table, config, error, reason, some .looping⟩ with
    ⟨ended, next, hturn, -⟩ | ⟨failure, next, hturn, -⟩
  · rw [hturn]
    cases ended <;> rfl
  · rw [hturn]
    cases failure with
    | panic => rfl
    | fault fault =>
      simp only [finish, keepError]
      cases config.policy <;> rfl

/-- Whoever calls the interpreter is refused, and nothing is changed by that. A hook is no
exception: a hook that calls the interpreter which is calling it goes on with the refusals in its
hands. -/
structure Refuses (interpreter : Interpreter) : Prop where
  once : ∀ start, runOnce start interpreter = .error (.fault .alreadyRunning) interpreter
  run : ∀ start cancels limit,
    Interpreter.run start cancels limit interpreter = .error (.fault .alreadyRunning) interpreter
  spawn : ∀ start obstacle,
    Interpreter.spawn start obstacle interpreter = .error (.fault .alreadyRunning) interpreter
  visit : ∀ depth, Interpreter.visit (depth + 1) interpreter = (.refused, interpreter)
  hook : ∀ depth index hook sighting, interpreter.machine.hooks.get? index = some hook →
    (hook.react (hook.calls + 1) sighting).reenter = true →
      invoke (Interpreter.visit (depth + 1)) index sighting interpreter =
        onMachine (fun _ => Machine.respond index hook sighting interpreter.phase (some .refused))
          interpreter

/-- While a call is active, everyone is refused. -/
theorem refuses_of_active {interpreter : Interpreter} (active : interpreter.phase ≠ .idle) :
    interpreter.Refuses := by
  have calls := calls_of_running ((Control.phase_ne_idle_iff _).mp active)
  constructor
  case once => exact fun start => (calls start (fun _ => false) 0 none).1
  case run => exact fun start cancels limit => (calls start cancels limit none).2.1
  case spawn => exact fun start obstacle => (calls start (fun _ => false) 0 obstacle).2.2
  case visit => exact visit_of_active active
  case hook =>
    intro depth index hook sighting found reenters
    have visits : ((hook.react (hook.calls + 1) sighting).reenter &&
        interpreter.phase != .idle) = true := by
      rw [reenters, bne_iff_ne.mpr active]
      rfl
    simp only [invoke, found, visits, if_true, visit_of_active active depth]

/-- The life of an interpreter, in every session of requests with any hooks, seen after any of its
requests.

It is idle exactly when no worker is at a run and no run of its own is still going on, however the
earlier calls have ended; a run that finds no worker to take it ends at once and leaves it idle.
Otherwise every call is refused and changes nothing, also a call that comes from within, in the
middle of an instruction: hooks are only called while a call is active, and a hook that calls the
interpreter is refused.

A run of a worker fails with a fault that is propagated or with the panic of a hook. The failures of
such runs are, in order, those that requests have collected and the one that is still waiting. While
one is waiting, the next call that waits, stops, or runs returns it, and no run begins. In general a
request returns what it collects, and a request that carries out no instructions itself fails in no
other way, unless it is refused or has no worker. -/
theorem lifecycle (core : Core) (table : DispatchTable) (config : Config)
    (requests : List Request) :
    let created := create core table config
    let last := Request.performAll requests created
    (last.phase = .idle ↔
        last.isBusy = false ∧ Request.leftRunning requests created = false) ∧
      (last.phase ≠ .idle → ∀ start cancels limit obstacle,
        (Request.runOnce start).perform last = .error (.fault .alreadyRunning) last ∧
          (Request.run start cancels limit).perform last =
            .error (.fault .alreadyRunning) last ∧
          (Request.spawn start obstacle).perform last =
            .error (.fault .alreadyRunning) last) ∧
      (∀ inner : Interpreter, inner.phase ≠ .idle → inner.Refuses) ∧
      (∀ call ∈ last.machine.log.toList, call.phase ≠ .idle ∧
        call.reentry = if call.reaction.reenter then some .refused else none) ∧
      (last.phase = .idle → last.pending = none → ∀ start why, ∃ next,
        (Request.spawn start (some why)).perform last =
            .error (.fault (.invalidOperation (.noWorker why))) next ∧
          next.phase = .idle ∧ next.isBusy = false ∧ next.pending = none) ∧
      (last.worker = some .looping → last.advance.pending =
        match onMachine Machine.turn last with
        | .ok _ _ => none
        | .error (.fault fault) _ =>
          if last.config.policy = .propagate then some fault else none
        | .error .panic _ => some (.invalidOperation .workerPanicked)) ∧
      Request.failures requests created =
        Request.reports requests created ++ last.pending.toList ∧
      (∀ fault, last.pending = some fault → ∀ start cancels limit obstacle,
        (Request.wait limit).perform last =
            .error (.fault fault) { last with worker := none } ∧
          (Request.stop limit).perform last =
            .error (.fault fault) { last.cancel with worker := none } ∧
          (Request.run start cancels limit).perform last =
            .error (.fault fault) { last with worker := none } ∧
          (Request.spawn start obstacle).perform last =
            .error (.fault fault) { last with worker := none }) ∧
      (∀ (request : Request) (fault : Fault), request.report? last = some fault →
        request.perform last = .error (.fault fault) { request.worked last with worker := none }) ∧
      ∀ (request : Request) (failure : Failure) (next : Interpreter),
        request.perform last = .error failure next → request.executes = false →
          (last.phase ≠ .idle ∧ failure = .fault .alreadyRunning) ∨
            (∃ fault, failure = .fault fault ∧ request.report? last = some fault) ∨
            request.Unmanned failure := by
  intro created last
  obtain ⟨stage, after, running, balance⟩ :=
    Request.exists_stage_performAll (inStage_create core table config) requests
  have going : stage = .running ↔ Request.leftRunning requests created = true := by
    rw [running]
    exact ⟨fun h => h.elim nofun id, .inr⟩
  refine ⟨?_, ?_, fun inner => refuses_of_active, ?_, ?_, pending_advance, ?_, ?_, ?_, ?_⟩
  · rw [after.stage.idle_iff, ← Bool.not_eq_true (Request.leftRunning requests created), ← going]
  · intro h start cancels limit obstacle
    have refuses := refuses_of_active h
    exact ⟨Request.map_eq_error (refuses.once start),
      Request.map_eq_error (refuses.run start cancels limit),
      Request.map_eq_error (refuses.spawn start obstacle)⟩
  · intro call member
    have guarded := after.guarded call member
    exact ⟨guarded.active, guarded.refused⟩
  · intro idle collected start why
    have resting := after.resting_of_idle ((Control.phase_eq_idle_iff _).mp idle)
    rw [collected] at resting
    obtain ⟨next, refused, rests⟩ := InStage.spawn ⟨resting, after.guarded⟩ start (some why)
    exact ⟨next, Request.map_eq_error refused, (Control.phase_eq_idle_iff _).mpr rests.stage.1,
      rests.stage.2⟩
  · rw [after.stage.pending_eq]
    exact balance
  · intro fault waiting start cancels limit obstacle
    obtain rfl := after.stage.resting_of_pending waiting
    exact Request.perform_of_pending after.stage start cancels limit obstacle
  · intro request fault report
    exact Request.perform_of_report after report
  · intro request failure next failed own
    rcases Request.report_of_perform after failed own with ⟨running, same⟩ | report
    · exact .inl ⟨(Control.phase_ne_idle_iff _).mpr running, same⟩
    · exact .inr report

/-- A worker comes to a hook that calls the interpreter in vain, and then fails. One instruction
that is carried out after that does not collect the failure; the run behind it does, so that there
is nothing left to collect. Before and after that a run finds no worker. -/
theorem lifecycle_failed_worker :
    let registry : Registry := [⟨0x42, .wdm, .immediate⟩]
    let table : DispatchTable :=
      { registry, admissible := ⟨by decide, by decide⟩
        entries := .ofFn fun i => registry.entry (.ofNat i), entries_eq := rfl }
    let core : Core := ⟨{}, .flat (.whole (Memory.least.setAll 0 [0x42, 0x01]))⟩
    let created := create core table { policy := .propagate }
    let hook : Hook := { react := fun _ _ => { reenter := true } }
    let requests : List Request :=
      [.install (HookTable.put {} 0 (some hook)), .spawn none (some "out of memory"), .spawn none,
        .advance, .advance, .advance, .runOnce none, .run none (fun _ => false) 1, .wait 0]
    let last := Request.performAll requests created
    last.phase = .idle ∧
      last.machine.log.toList.map HookCall.reentry = [some .refused] ∧
      Request.failures requests created = [.unrecognizedInstruction 0] ∧
      Request.reports requests created = [.unrecognizedInstruction 0] ∧
      ∃ next, (Request.spawn none (some "out of memory")).perform last =
          .error (.fault (.invalidOperation (.noWorker "out of memory"))) next ∧
        next.phase = .idle := by
  intro registry table core created hook requests last
  obtain ⟨idle, -, -, -, spawn, -, balance, -⟩ :=
    lifecycle core table { policy := .propagate } requests
  have evaluated : last.isBusy = false ∧ Request.leftRunning requests created = false ∧
      last.pending = none ∧
      last.machine.log.toList.map HookCall.reentry = [some .refused] ∧
      Request.failures requests created = [.unrecognizedInstruction 0] := by
    decide +kernel
  obtain ⟨quiet, ended, collected, refused, failed⟩ := evaluated
  have rests : last.phase = .idle := idle.mpr ⟨quiet, ended⟩
  have everything : Request.failures requests created =
      Request.reports requests created ++ last.pending.toList := balance
  rw [failed, collected, Option.toList_none, List.append_nil] at everything
  obtain ⟨next, unmanned, still, -⟩ := spawn rests collected none "out of memory"
  exact ⟨rests, refused, failed, everything.symm, next, unmanned, still⟩

end Interpreter

end W65C816
