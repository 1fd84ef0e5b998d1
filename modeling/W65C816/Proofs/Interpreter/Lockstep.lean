import W65C816.Proofs.Execution.Access
import W65C816.Proofs.Execution.Lockstep
import W65C816.Proofs.Interpreter.Requests

/-!
# Interpreters in lockstep

Two interpreters whose machines go in tandem answer every request alike, as long as they treat
errors alike. Only one thing in an interpreter asks for the error policy, and it asks last: a call
has come to its end and has left everything behind when it decides what to make of the fault of an
instruction. `Request.attempt` is a request up to that point, so interpreters in tandem attempt
their calls alike whatever their policies are. Machines in lockstep go in tandem whatever hooks they
get.
-/

set_option autoImplicit false

namespace W65C816

/-! ## Requests up to the error policy -/

namespace Interpreter

/-- One instruction, with its fault for an answer if it has failed. -/
def attemptOnce (start : Option UInt32) : Call (Except Fault Answer) := fun interpreter =>
  match begin interpreter with
  | .error failure interpreter => .error failure interpreter
  | .ok _ interpreter =>
    match onMachine Machine.step (interpreter.alterRegisters fun r => r.startAt start) with
    | .ok record interpreter => .ok (.ok (.instruction (some record))) interpreter.release
    | .error (.fault fault) interpreter =>
      .ok (.error fault) (interpreter.release.keepError fault)
    | .error .panic interpreter => .error .panic interpreter.release

/-- A run, with the fault that has ended it for an answer if there is one. -/
def attemptRun (start : Option UInt32) (requests : Nat → Bool) (limit : Nat) :
    Call (Except Fault Answer) := fun interpreter =>
  match beginRun start interpreter with
  | .error failure interpreter => .error failure interpreter
  | .ok _ interpreter =>
    match onMachine (fun table => Machine.turns table requests 0 limit)
        (interpreter.alterRegisters Registers.resume) with
    | .ok none interpreter => .ok (.ok (.ended false)) interpreter
    | .ok (some reason) interpreter =>
      .ok (.ok (.ended true)) (interpreter.finish reason).release
    | .error (.fault fault) interpreter =>
      .ok (.error fault) ((interpreter.finish .error).keepError fault).release
    | .error .panic interpreter => .error .panic interpreter.release

end Interpreter

namespace Request

/-- A request up to where it asks for the error policy. -/
def attempt : Request → Call (Except Fault Answer)
  | .runOnce start => Interpreter.attemptOnce start
  | .run start cancels limit => Interpreter.attemptRun start cancels limit
  | request => Except.ok <$> request.perform

/-- The answer to a call whose instruction has failed, when the error is kept back. -/
def quiet : Request → Answer
  | .runOnce _ => .instruction none
  | _ => .ended true

/-- A changed call answers the changed value, and fails as before. -/
theorem map_apply {α β : Type} (change : α → β) (call : Call α) (interpreter : Interpreter) :
    (change <$> call) interpreter = match call interpreter with
      | .ok value next => .ok (change value) next
      | .error failure next => .error failure next := by
  change EStateM.map change call interpreter = _
  unfold EStateM.map
  cases call interpreter <;> rfl

/-- Reporting a fault with a changed answer is reporting it and changing the answer. -/
theorem map_report {α : Type} (change : α → Answer) (fault : Fault) (value : α)
    (interpreter : Interpreter) :
    (match Interpreter.report fault value interpreter with
      | .ok value next => .ok (change value) next
      | .error failure next => .error failure next) =
      Interpreter.report fault (change value) interpreter := by
  unfold Interpreter.report
  cases interpreter.config.policy <;> rfl

/-- What never has a fault for an answer is its own attempt. -/
theorem eq_attempt_of_answer (call : Call Answer) (quiet : Answer) (interpreter : Interpreter) :
    call interpreter =
      match (Except.ok <$> call : Call (Except Fault Answer)) interpreter with
      | .ok (.ok answer) next => .ok answer next
      | .ok (.error fault) next => Interpreter.report fault quiet next
      | .error failure next => .error failure next := by
  rw [map_apply]
  cases call interpreter <;> rfl

/-- A request is its attempt, with what the error policy makes of a fault. -/
theorem perform_eq_attempt (request : Request) (interpreter : Interpreter) :
    request.perform interpreter = match request.attempt interpreter with
      | .ok (.ok answer) next => .ok answer next
      | .ok (.error fault) next => Interpreter.report fault request.quiet next
      | .error failure next => .error failure next := by
  cases request with
  | runOnce start =>
    rw [perform, map_apply, attempt, Interpreter.runOnce_eq_carryOut, Interpreter.carryOut,
      Interpreter.attemptOnce]
    cases Interpreter.begin interpreter with
    | error failure next => rfl
    | ok _ next =>
      simp only []
      rcases Interpreter.onMachine Machine.step _ with ⟨record, next⟩ | ⟨fault | _, next⟩
      · rfl
      · exact map_report Answer.instruction fault none _
      · rfl
  | run start cancels limit =>
    rw [perform, map_apply, attempt, Interpreter.run_eq_carryOn, Interpreter.carryOn,
      Interpreter.attemptRun]
    cases Interpreter.beginRun start interpreter with
    | error failure next => rfl
    | ok _ next =>
      simp only []
      rcases Interpreter.onMachine _ _ with ⟨_ | reason, next⟩ | ⟨fault | _, next⟩
      · rfl
      · rfl
      · exact map_report Answer.ended fault true _
      · rfl
  | spawn _ _ | advance | wait _ | stop _ | cancel | attach _ | install _ =>
    exact eq_attempt_of_answer _ (.ended true) interpreter

end Request

/-! ## Pairs of interpreters -/

namespace Interpreter

/-- Interpreters whose machines are related and whose settings are, and which are the same in
everything else. -/
inductive Paired (relation : Machine → Machine → Prop) (settings : Config → Config → Prop) :
    Interpreter → Interpreter → Prop
  | intro {machine other : Machine} (h : relation machine other) (table : DispatchTable)
    {config config' : Config} (set : settings config config') (lastError : Option Fault)
    (stopReason : Option StopReason) (worker : Option Worker) :
    Paired relation settings ⟨machine, table, config, lastError, stopReason, worker⟩
      ⟨other, table, config', lastError, stopReason, worker⟩

section

variable {relation : Machine → Machine → Prop} {settings : Config → Config → Prop} {α β : Type}
  {interpreter other : Interpreter}

/-- The call takes interpreters in a pair to the same end, and leaves a pair behind. -/
abbrev KeepsStep (relation : Machine → Machine → Prop) (settings : Config → Config → Prop)
    (call : Call α) : Prop :=
  Action.Simulates (Paired relation settings) call call

namespace Paired

variable (tandem : Machine.Tandem relation)

include tandem

/-- Starting at an address keeps interpreters paired. -/
theorem startAt (h : Paired relation settings interpreter other) (start : Option UInt32) :
    Paired relation settings (interpreter.alterRegisters fun r => r.startAt start)
      (other.alterRegisters fun r => r.startAt start) := by
  obtain ⟨related, table, set, error, reason, worker⟩ := h
  exact ⟨tandem.startAt related start, table, set, error, reason, worker⟩

/-- Resuming keeps interpreters paired. -/
theorem resume (h : Paired relation settings interpreter other) :
    Paired relation settings (interpreter.alterRegisters Registers.resume)
      (other.alterRegisters Registers.resume) := by
  obtain ⟨related, table, set, error, reason, worker⟩ := h
  exact ⟨tandem.resume related, table, set, error, reason, worker⟩

/-- The same change of the control keeps interpreters paired. -/
theorem alterControl (h : Paired relation settings interpreter other)
    (change : Control → Control) :
    Paired relation settings (interpreter.alterControl change) (other.alterControl change) := by
  obtain ⟨related, table, set, error, reason, worker⟩ := h
  exact ⟨tandem.steer related change, table, set, error, reason, worker⟩

/-- Paired interpreters have the same control. -/
theorem control (h : Paired relation settings interpreter other) :
    interpreter.machine.control = other.machine.control := by
  obtain ⟨related, table, set, error, reason, worker⟩ := h
  exact tandem.control related

/-- Releasing both keeps interpreters paired. -/
theorem release (h : Paired relation settings interpreter other) :
    Paired relation settings interpreter.release other.release :=
  h.alterControl tandem Control.release

/-- Concluding both workers alike keeps interpreters paired. -/
theorem conclude (h : Paired relation settings interpreter other) (outcome : Except Fault Unit) :
    Paired relation settings (interpreter.conclude outcome) (other.conclude outcome) := by
  obtain ⟨related, table, set, error, reason, worker⟩ := h
  exact ⟨tandem.steer related Control.release, table, set, error, reason, _⟩

end Paired

/-- Recording the same error keeps interpreters paired. -/
theorem Paired.keepError (h : Paired relation settings interpreter other) (fault : Fault) :
    Paired relation settings (interpreter.keepError fault) (other.keepError fault) := by
  obtain ⟨related, table, set, error, reason, worker⟩ := h
  exact ⟨related, table, set, some fault, reason, worker⟩

/-- Finishing for the same reason keeps interpreters paired. -/
theorem Paired.finish (h : Paired relation settings interpreter other) (reason : StopReason) :
    Paired relation settings (interpreter.finish reason) (other.finish reason) := by
  obtain ⟨related, table, set, error, earlier, worker⟩ := h
  exact ⟨related, table, set, error, some reason, worker⟩

/-- Paired interpreters are busy at the same time. -/
theorem Paired.isBusy (h : Paired relation settings interpreter other) :
    interpreter.isBusy = other.isBusy := by
  obtain ⟨related, table, set, error, reason, worker⟩ := h
  rfl

/-! ## Calls -/

/-- A changed call keeps step if the call does. -/
theorem keepsStep_map (change : α → β) {call : Call α} (h : KeepsStep relation settings call) :
    KeepsStep relation settings (change <$> call) := by
  intro interpreter other paired
  have hcall := h interpreter other paired
  rw [Request.map_apply, Request.map_apply]
  generalize call interpreter = outcome at hcall
  generalize call other = outcome' at hcall
  cases hcall with
  | ok value paired => exact .ok (change value) paired
  | error failure paired => exact .error failure paired

/-- A call on the machine keeps step if its action is simulated by itself. -/
theorem keepsStep_onMachine {action : DispatchTable → MachineAction α}
    (h : ∀ table, Action.Simulates relation (action table) (action table)) :
    KeepsStep relation settings (onMachine action) := by
  rintro _ _ ⟨related, table, set, error, reason, worker⟩
  rename_i machine other config config'
  have hmatch := h table machine other related
  exact hmatch.place fun related => ⟨related, table, set, error, reason, worker⟩

/-- Beginning a call keeps step, since both have the same control. -/
theorem keepsStep_begin (tandem : Machine.Tandem relation) :
    KeepsStep relation settings begin := by
  intro interpreter other paired
  unfold begin
  rw [paired.control tandem]
  split
  · exact .ok () (paired.alterControl tandem _)
  · exact .error _ paired

/-- Collecting from the workers keeps step. -/
theorem keepsStep_collect : KeepsStep relation settings collect := by
  rintro _ _ ⟨related, table, set, error, reason, worker⟩
  rcases worker with _ | _ | _ | (fault | _)
  · exact .ok () ⟨related, _, set, _, _, _⟩
  · exact .ok () ⟨related, _, set, _, _, _⟩
  · exact .ok () ⟨related, _, set, _, _, _⟩
  · exact .error _ ⟨related, _, set, _, _, _⟩
  · exact .ok () ⟨related, _, set, _, _, _⟩

/-- An attempt at one instruction keeps step. -/
theorem keepsStep_attemptOnce (tandem : Machine.Tandem relation) (start : Option UInt32) :
    KeepsStep relation settings (attemptOnce start) := by
  intro interpreter other paired
  have hbegin := keepsStep_begin tandem interpreter other paired
  unfold attemptOnce
  generalize begin interpreter = begun at hbegin
  generalize begin other = begun' at hbegin
  cases hbegin with
  | error failure paired => exact .error failure paired
  | ok _ paired =>
    have hstep := keepsStep_onMachine tandem.step _ _
      (paired.startAt tandem start)
    simp only []
    generalize onMachine Machine.step (alterRegisters _ _) = stepped at hstep
    generalize onMachine Machine.step (alterRegisters _ _) = stepped' at hstep
    cases hstep with
    | ok record paired => exact .ok _ (paired.release tandem)
    | error failure paired =>
      cases failure with
      | fault fault => exact .ok _ ((paired.release tandem).keepError fault)
      | panic => exact .error Failure.panic (paired.release tandem)

/-- Beginning a run keeps step. -/
theorem keepsStep_beginRun (tandem : Machine.Tandem relation) (start : Option UInt32) :
    KeepsStep relation settings (beginRun start) := by
  intro interpreter other paired
  have hbegin := keepsStep_begin tandem interpreter other paired
  unfold beginRun
  generalize begin interpreter = begun at hbegin
  generalize begin other = begun' at hbegin
  cases hbegin with
  | error failure paired => exact .error failure paired
  | ok _ paired =>
    have hcollect := keepsStep_collect _ _ paired
    simp only []
    generalize collect _ = collected at hcollect
    generalize collect _ = collected' at hcollect
    cases hcollect with
    | error failure paired => exact .error failure (paired.release tandem)
    | ok _ paired =>
      have ready := (paired.alterControl tandem Control.reset).startAt tandem start
      simp only []
      generalize alterRegisters _ _ = cleared at ready
      generalize alterRegisters _ _ = cleared' at ready
      obtain ⟨related, table, set, error, reason, worker⟩ := ready
      exact .ok () ⟨related, table, set, error, none, worker⟩

/-- What a run makes of the end of its turns, up to the error policy. -/
def concludeRun : EStateM.Result Failure Interpreter (Option StopReason) →
    EStateM.Result Failure Interpreter (Except Fault Answer)
  | .ok none interpreter => .ok (.ok (.ended false)) interpreter
  | .ok (some reason) interpreter => .ok (.ok (.ended true)) (interpreter.finish reason).release
  | .error (.fault fault) interpreter =>
    .ok (.error fault) ((interpreter.finish .error).keepError fault).release
  | .error .panic interpreter => .error .panic interpreter.release

/-- A run that has begun is what it makes of the end of its turns. -/
theorem attemptRun_of_begun {start : Option UInt32} {begun : Interpreter}
    (h : beginRun start interpreter = .ok () begun) (requests : Nat → Bool) (limit : Nat) :
    attemptRun start requests limit interpreter =
      concludeRun (onMachine (fun table => Machine.turns table requests 0 limit)
        (begun.alterRegisters Registers.resume)) := by
  simp only [attemptRun, h]
  generalize onMachine _ (alterRegisters _ _) = outcome
  rcases outcome with ⟨_ | _, _⟩ | ⟨_ | _, _⟩ <;> rfl

/-- Runs with matching outcomes are concluded with matching outcomes. -/
theorem matches_concludeRun (tandem : Machine.Tandem relation)
    {outcome outcome' : EStateM.Result Failure Interpreter (Option StopReason)}
    (h : Action.Matches (Paired relation settings) outcome outcome') :
    Action.Matches (Paired relation settings) (concludeRun outcome) (concludeRun outcome') := by
  cases h with
  | ok ended paired =>
    cases ended with
    | none => exact .ok _ paired
    | some reason => exact .ok _ ((paired.finish reason).release tandem)
  | error failure paired =>
    cases failure with
    | fault fault => exact .ok _ (((paired.finish .error).keepError fault).release tandem)
    | panic => exact .error Failure.panic (paired.release tandem)

/-- An attempt at a run keeps step. -/
theorem keepsStep_attemptRun (tandem : Machine.Tandem relation) (start : Option UInt32)
    (requests : Nat → Bool) (limit : Nat) :
    KeepsStep relation settings (attemptRun start requests limit) := by
  intro interpreter other paired
  have hbegin := keepsStep_beginRun tandem start interpreter other paired
  cases found' : beginRun start other with
  | error failure next' =>
    rw [found'] at hbegin
    obtain ⟨next, found, paired⟩ := hbegin.of_error
    simp only [attemptRun, found, found']
    exact .error failure paired
  | ok _ next' =>
    rw [found'] at hbegin
    obtain ⟨next, found, paired⟩ := hbegin.of_ok
    rw [attemptRun_of_begun found, attemptRun_of_begun found']
    exact matches_concludeRun tandem <|
      keepsStep_onMachine (fun table => tandem.turns table requests 0 limit) _ _
        (paired.resume tandem)

/-- Spawning a run keeps step, whether the worker comes into being or not. -/
theorem keepsStep_spawn (tandem : Machine.Tandem relation) (start : Option UInt32)
    (obstacle : Option String) : KeepsStep relation settings (spawn start obstacle) := by
  intro interpreter other paired
  have hbegin := keepsStep_beginRun tandem start interpreter other paired
  unfold spawn
  generalize beginRun start interpreter = begun at hbegin
  generalize beginRun start other = begun' at hbegin
  cases hbegin with
  | error failure paired => exact .error failure paired
  | ok _ paired =>
    cases obstacle with
    | none =>
      obtain ⟨related, table, set, error, reason, worker⟩ := paired
      exact .ok () ⟨related, table, set, error, reason, _⟩
    | some why => exact .error _ (paired.release tandem)

/-! ## The worker -/

/-- What a call makes of the worker that it has waited for. -/
theorem matches_wait {limit : Nat}
    (settled : Paired relation settings (settle limit interpreter) (settle limit other)) :
    Action.Matches (Paired relation settings) (wait limit interpreter) (wait limit other) := by
  have hcollect := keepsStep_collect _ _ settled
  unfold wait
  simp only []
  rw [settled.isBusy]
  split
  · exact .ok false settled
  · generalize collect _ = collected at hcollect
    generalize collect _ = collected' at hcollect
    cases hcollect with
    | ok _ paired => exact .ok true paired
    | error failure paired => exact .error failure paired

variable (tandem : Machine.Tandem relation)
  (policies : ∀ {config config'}, settings config config' → config.policy = config'.policy)

include tandem policies

/-- A turn of the worker. What it leaves to be collected hangs on the error policy. -/
theorem Paired.turn (paired : Paired relation settings interpreter other) :
    Paired relation settings interpreter.turn other.turn := by
  have hturn := keepsStep_onMachine tandem.turn interpreter other paired
  rw [turn_eq, turn_eq]
  generalize onMachine Machine.turn interpreter = outcome at hturn
  generalize onMachine Machine.turn other = outcome' at hturn
  cases hturn with
  | ok ended paired =>
    cases ended with
    | none => exact paired
    | some reason => exact (paired.finish reason).conclude tandem _
  | error failure paired =>
    cases failure with
    | panic => exact paired.conclude tandem _
    | fault fault =>
      have kept := (paired.finish .error).keepError fault
      obtain ⟨related, table, set, error, reason, worker⟩ := paired
      simp only [Interpreter.finish, Interpreter.keepError, policies set]
      split
      · exact kept.conclude tandem _
      · exact kept.conclude tandem _

/-- The workers of paired interpreters advance alike. -/
theorem Paired.advance (paired : Paired relation settings interpreter other) :
    Paired relation settings interpreter.advance other.advance := by
  have turned := paired.turn tandem policies
  obtain ⟨related, table, set, error, reason, worker⟩ := paired
  rcases worker with _ | _ | _ | outcome
  · exact ⟨related, _, set, _, _, _⟩
  · exact ⟨tandem.resume related, _, set, _, _, _⟩
  · exact turned
  · exact ⟨related, _, set, _, _, _⟩

/-- Any number of turns of the worker, by induction. -/
theorem Paired.settle (paired : Paired relation settings interpreter other) (limit : Nat) :
    Paired relation settings (settle limit interpreter) (settle limit other) := by
  induction limit generalizing interpreter other with
  | zero => exact paired
  | succ limit ih =>
    unfold Interpreter.settle
    rw [paired.isBusy]
    split
    · exact ih (paired.advance tandem policies)
    · exact paired

/-- Waiting for the workers keeps step. -/
theorem keepsStep_wait (limit : Nat) : KeepsStep relation settings (wait limit) :=
  fun _ _ paired => matches_wait (paired.settle tandem policies limit)

/-- Stopping the workers keeps step. -/
theorem keepsStep_stop (limit : Nat) : KeepsStep relation settings (stop limit) :=
  fun _ _ paired =>
    keepsStep_wait tandem policies limit _ _ (paired.alterControl tandem Control.cancel)

end

/-- A fault is reported alike under the same policy. -/
theorem keepsStep_report {relation : Machine → Machine → Prop} {settings : Config → Config → Prop}
    (policies : ∀ {config config'}, settings config config' → config.policy = config'.policy)
    {α : Type} (fault : Fault) (value : α) :
    KeepsStep relation settings (report fault value) := by
  rintro _ _ ⟨related, table, set, error, reason, worker⟩
  simp only [report, policies set]
  split
  · exact .ok value ⟨related, _, set, _, _, _⟩
  · exact .error _ ⟨related, _, set, _, _, _⟩

end Interpreter

/-! ## Requests -/

namespace Request

/-- Whether a worker may take turns during a request. -/
def letsWork : Request → Bool
  | .advance | .wait _ | .stop _ => true
  | _ => false

variable {relation : Machine → Machine → Prop} {settings : Config → Config → Prop}
  {request : Request}

/-- Interpreters in tandem attempt a request alike. Their error policies have to be the same only
when a worker may come to the end of its run, and their machines have to stay in tandem on a new bus
or with new hooks only when the request is for them. -/
theorem keepsStep_attempt_of_tandem (tandem : Machine.Tandem relation)
    (attaches : ∀ bus, request = .attach bus → ∀ {machine other : Machine},
      relation machine other → relation { machine with core := { machine.core with bus } }
        { other with core := { other.core with bus } })
    (installs : ∀ hooks, request = .install hooks → ∀ {machine other : Machine},
      relation machine other → relation { machine with hooks } { other with hooks })
    (policies : request.letsWork = true →
      ∀ {config config'}, settings config config' → config.policy = config'.policy) :
    Interpreter.KeepsStep relation settings request.attempt := by
  cases request with
  | runOnce start => exact Interpreter.keepsStep_attemptOnce tandem start
  | run start cancels limit => exact Interpreter.keepsStep_attemptRun tandem start cancels limit
  | spawn start obstacle =>
    exact Interpreter.keepsStep_map _
      (Interpreter.keepsStep_map _ (Interpreter.keepsStep_spawn tandem start obstacle))
  | advance =>
    exact Interpreter.keepsStep_map _ fun _ _ paired =>
      .ok Answer.done (paired.advance tandem (policies rfl))
  | wait limit =>
    exact Interpreter.keepsStep_map _
      (Interpreter.keepsStep_map _ (Interpreter.keepsStep_wait tandem (policies rfl) limit))
  | stop limit =>
    exact Interpreter.keepsStep_map _
      (Interpreter.keepsStep_map _ (Interpreter.keepsStep_stop tandem (policies rfl) limit))
  | cancel =>
    exact Interpreter.keepsStep_map _ fun _ _ paired =>
      .ok Answer.done (paired.alterControl tandem Control.cancel)
  | attach bus =>
    refine Interpreter.keepsStep_map _ ?_
    rintro _ _ ⟨related, table, set, error, reason, worker⟩
    exact .ok Answer.done ⟨attaches bus rfl related, table, set, error, reason, worker⟩
  | install hooks =>
    refine Interpreter.keepsStep_map _ ?_
    rintro _ _ ⟨related, table, set, error, reason, worker⟩
    exact .ok Answer.done ⟨installs hooks rfl related, table, set, error, reason, worker⟩

/-- With the same error policy a request that is attempted alike is also answered alike. -/
theorem keepsStep_perform_of_attempt
    (policies : ∀ {config config'}, settings config config' → config.policy = config'.policy)
    (h : Interpreter.KeepsStep relation settings request.attempt) :
    Interpreter.KeepsStep relation settings request.perform := by
  intro interpreter other paired
  have hattempt := h interpreter other paired
  rw [perform_eq_attempt, perform_eq_attempt]
  generalize request.attempt interpreter = outcome at hattempt
  generalize request.attempt other = outcome' at hattempt
  cases hattempt with
  | error failure paired => exact .error failure paired
  | ok found paired =>
    cases found with
    | ok answer => exact .ok answer paired
    | error fault => exact Interpreter.keepsStep_report policies fault request.quiet _ _ paired

section

variable (lockstep : Machine.Lockstep relation)
  (attaches : ∀ bus, request = .attach bus → ∀ {machine other : Machine},
    relation machine other → relation { machine with core := { machine.core with bus } }
      { other with core := { other.core with bus } })

include lockstep attaches

/-- In lockstep new hooks make no difference. -/
theorem keepsStep_attempt
    (policies : request.letsWork = true →
      ∀ {config config'}, settings config config' → config.policy = config'.policy) :
    Interpreter.KeepsStep relation settings request.attempt :=
  keepsStep_attempt_of_tandem lockstep.tandem attaches
    (fun hooks _ _ _ related => lockstep.install related hooks) policies

/-- A request keeps step under settings with the same policy. -/
theorem keepsStep_perform
    (policies : ∀ {config config'}, settings config config' → config.policy = config'.policy) :
    Interpreter.KeepsStep relation settings request.perform :=
  keepsStep_perform_of_attempt policies
    (keepsStep_attempt lockstep attaches fun _ => policies)

end

end Request

end W65C816
