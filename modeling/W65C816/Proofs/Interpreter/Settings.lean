import W65C816.Proofs.Interpreter.Isolation
import W65C816.Proofs.Interpreter.Lockstep

/-!
# Settings do not alter execution

How an interpreter is set up says how much it traces and what it makes of errors. Two interpreters
that differ in nothing else, and in what their traces hold, are in lockstep. So with one error
policy they answer every session alike, concurrent runs included. With two of them they still
attempt alike every call of which the instructions are their own, and the answers differ where an
instruction has failed, as the policies say: one keeps the error back that the other returns.
-/

set_option autoImplicit false

namespace W65C816

/-- The interpreters are the same but for how they are set up and what their traces hold. -/
structure Interpreter.SameButSettings (interpreter other : Interpreter) : Prop where
  core : interpreter.machine.core = other.machine.core
  hooks : interpreter.machine.hooks = other.machine.hooks
  control : interpreter.machine.control = other.machine.control
  log : interpreter.machine.log = other.machine.log
  table : interpreter.table = other.table
  lastError : interpreter.lastError = other.lastError
  stopReason : interpreter.stopReason = other.stopReason
  worker : interpreter.worker = other.worker

/-- What a call returns whose instruction has failed. -/
def ErrorPolicy.answer (policy : ErrorPolicy) (fault : Fault) (quiet : Answer) :
    Except Failure Answer :=
  match policy with
  | .record => .ok quiet
  | .propagate => .error (.fault fault)

namespace Interpreter

variable {interpreter other : Interpreter} {settings : Config → Config → Prop}

/-- Interpreters that are the same up to trace and settings are paired. -/
theorem SameButSettings.paired (same : interpreter.SameButSettings other)
    (set : settings interpreter.config other.config) :
    Paired Machine.SameButTrace settings interpreter other := by
  obtain ⟨machine, table, config, error, reason, worker⟩ := interpreter
  obtain ⟨machine', table', config', error', reason', worker'⟩ := other
  obtain ⟨core, hooks, control, log, rfl, rfl, rfl, rfl⟩ := same
  exact ⟨⟨core, hooks, control, log⟩, table, set, error, reason, worker⟩

/-- Paired interpreters are the same up to trace and settings. -/
theorem Paired.sameButSettings (h : Paired Machine.SameButTrace settings interpreter other) :
    interpreter.SameButSettings other ∧ settings interpreter.config other.config := by
  obtain ⟨related, table, set, error, reason, worker⟩ := h
  exact ⟨⟨related.core, related.hooks, related.control, related.log, rfl, rfl, rfl, rfl⟩, set⟩

/-- What comes of a report is what the policy makes of the fault. -/
theorem result_report (fault : Fault) (quiet : Answer) (interpreter : Interpreter) :
    Use.result (report fault quiet interpreter) = interpreter.config.policy.answer fault quiet := by
  unfold report
  cases interpreter.config.policy <;> rfl

end Interpreter

namespace Request

/-- What each request of a session is answered. -/
def results : List Request → Interpreter → List (Except Failure Answer)
  | [], _ => []
  | request :: rest, interpreter =>
    Use.result (request.perform interpreter) ::
      results rest (Action.stateAfter (request.perform interpreter))

/-- The fault of the instruction that a request ends with, if it ends with one. -/
def fault? (request : Request) (interpreter : Interpreter) : Option Fault :=
  match request.attempt interpreter with
  | .ok (.error fault) _ => some fault
  | _ => none

variable {request : Request} {interpreter other : Interpreter}

/-- Nothing that a request does with a bus looks at a trace. -/
theorem attaches_sameButTrace (bus : Bus) (_ : request = .attach bus) {machine other : Machine}
    (same : machine.SameButTrace other) :
    ({ machine with core := { machine.core with bus } } : Machine).SameButTrace
      { other with core := { other.core with bus } } := by
  obtain ⟨core, hooks, control, log⟩ := same
  exact ⟨by rw [core], hooks, control, log⟩

/-- A session is answered alike if each of its requests is. By induction over the requests. -/
theorem results_of_keepsStep {relation : Machine → Machine → Prop}
    {settings : Config → Config → Prop} (requests : List Request)
    (h : ∀ request ∈ requests, Interpreter.KeepsStep relation settings request.perform)
    (paired : Interpreter.Paired relation settings interpreter other) :
    results requests interpreter = results requests other ∧
      Interpreter.Paired relation settings (performAll requests interpreter)
        (performAll requests other) := by
  induction requests generalizing interpreter other with
  | nil => exact ⟨rfl, paired⟩
  | cons request rest ih =>
    rw [List.forall_mem_cons] at h
    have hrequest := h.1 interpreter other paired
    simp only [results, performAll]
    generalize request.perform interpreter = outcome at hrequest
    generalize request.perform other = outcome' at hrequest
    cases hrequest with
    | ok answer paired =>
      obtain ⟨same, last⟩ := ih h.2 paired
      exact ⟨congrArg (_ :: ·) same, last⟩
    | error failure paired =>
      obtain ⟨same, last⟩ := ih h.2 paired
      exact ⟨congrArg (_ :: ·) same, last⟩

/-- With the same error policy a session is answered alike. -/
theorem results_of_samePolicy {settings : Config → Config → Prop}
    (policies : ∀ {config config'}, settings config config' → config.policy = config'.policy)
    (requests : List Request)
    (paired : Interpreter.Paired Machine.SameButTrace settings interpreter other) :
    results requests interpreter = results requests other ∧
      Interpreter.Paired Machine.SameButTrace settings (performAll requests interpreter)
        (performAll requests other) :=
  results_of_keepsStep requests
    (fun _ _ => keepsStep_perform Machine.lockstep_sameButTrace attaches_sameButTrace policies)
    paired

/-- A fault is kept before the error policy is asked. -/
theorem lastError_of_attempt {fault : Fault} {next : Interpreter}
    (h : request.attempt interpreter = .ok (.error fault) next) : next.lastError = some fault := by
  have answered {call : Call Answer}
      (h : (Except.ok <$> call : Call (Except Fault Answer)) interpreter =
        .ok (.error fault) next) :
      next.lastError = some fault := by
    rw [map_apply] at h
    split at h <;> cases h
  cases request with
  | runOnce start =>
    simp only [attempt, Interpreter.attemptOnce] at h
    split at h
    · cases h
    · split at h <;> cases h
      rfl
  | run start cancels limit =>
    simp only [attempt, Interpreter.attemptRun] at h
    split at h
    · cases h
    · split at h <;> cases h
      rfl
  | spawn _ | advance | wait _ | stop _ | cancel | attach _ | install _ => exact answered h

/-- An attempt that answers has no fault, and the request answers the same. -/
theorem perform_of_answer {answer : Answer} {next : Interpreter}
    (h : request.attempt interpreter = .ok (.ok answer) next) :
    request.fault? interpreter = none ∧ request.perform interpreter = .ok answer next := by
  rw [fault?, perform_eq_attempt, h]
  exact ⟨rfl, rfl⟩

/-- An attempt that fails has no fault to report, and the request fails in the same way. -/
theorem perform_of_failure {failure : Failure} {next : Interpreter}
    (h : request.attempt interpreter = .error failure next) :
    request.fault? interpreter = none ∧ request.perform interpreter = .error failure next := by
  rw [fault?, perform_eq_attempt, h]
  exact ⟨rfl, rfl⟩

/-- The fault of an attempt is answered as the policy has it. -/
theorem perform_of_fault {fault : Fault} {next : Interpreter}
    (h : request.attempt interpreter = .ok (.error fault) next) :
    request.fault? interpreter = some fault ∧
      Use.result (request.perform interpreter) = next.config.policy.answer fault request.quiet ∧
      Action.stateAfter (request.perform interpreter) = next := by
  rw [fault?, perform_eq_attempt, h]
  exact ⟨rfl, Interpreter.result_report fault request.quiet next, Interpreter.stateAfter_report ..⟩

/-- Interpreters with two error policies answer a request alike, up to what the policies make of the
fault of an instruction. -/
structure AnsweredAlike (policy policy' : ErrorPolicy) (request : Request)
    (interpreter other : Interpreter) : Prop where
  faults : request.fault? interpreter = request.fault? other
  unfailing : request.fault? interpreter = none →
    Use.result (request.perform interpreter) = Use.result (request.perform other)
  failing : ∀ fault, request.fault? interpreter = some fault →
    Use.result (request.perform interpreter) = policy.answer fault request.quiet ∧
      Use.result (request.perform other) = policy'.answer fault request.quiet ∧
      (Action.stateAfter (request.perform interpreter)).lastError = some fault

/-- The interpreters are set up in just these ways. -/
def SetUp (config config' setting setting' : Config) : Prop :=
  setting = config ∧ setting' = config'

/-- The error policies are asked when everything else has happened. -/
theorem answeredAlike {config config' : Config} (own : request.letsWork = false)
    (paired : Interpreter.Paired Machine.SameButTrace (SetUp config config') interpreter other) :
    request.AnsweredAlike config.policy config'.policy interpreter other ∧
      Interpreter.Paired Machine.SameButTrace (SetUp config config')
        (Action.stateAfter (request.perform interpreter))
        (Action.stateAfter (request.perform other)) := by
  have policies (works : request.letsWork = true) {setting setting' : Config}
      (_ : SetUp config config' setting setting') : setting.policy = setting'.policy := by
    cases own.symm.trans works
  have hattempt := keepsStep_attempt Machine.lockstep_sameButTrace attaches_sameButTrace policies
    interpreter other paired
  generalize here : request.attempt interpreter = outcome at hattempt
  generalize there : request.attempt other = outcome' at hattempt
  cases hattempt with
  | error failure paired =>
    obtain ⟨none, performed⟩ := perform_of_failure here
    obtain ⟨none', performed'⟩ := perform_of_failure there
    rw [performed, performed']
    refine ⟨⟨none.trans none'.symm, ?_, ?_⟩, paired⟩
    · intro _
      rw [performed, performed']
      rfl
    · intro fault failed
      cases none.symm.trans failed
  | ok found paired =>
    cases found with
    | ok answer =>
      obtain ⟨none, performed⟩ := perform_of_answer here
      obtain ⟨none', performed'⟩ := perform_of_answer there
      rw [performed, performed']
      refine ⟨⟨none.trans none'.symm, ?_, ?_⟩, paired⟩
      · intro _
        rw [performed, performed']
        rfl
      · intro fault failed
        cases none.symm.trans failed
    | error fault =>
      obtain ⟨some, answered, after⟩ := perform_of_fault here
      obtain ⟨some', answered', after'⟩ := perform_of_fault there
      obtain ⟨set, set'⟩ := paired.sameButSettings.2
      rw [set] at answered
      rw [set'] at answered'
      rw [after, after']
      refine ⟨⟨some.trans some'.symm, ?_, ?_⟩, paired⟩
      · intro none
        cases none.symm.trans some
      · intro _ failed
        cases some.symm.trans failed
        rw [after]
        exact ⟨answered, answered', lastError_of_attempt here⟩

/-- Any number of calls of which the instructions are their own, by induction. -/
theorem paired_performAll {config config' : Config} (calls : List Request)
    (own : ∀ call ∈ calls, call.letsWork = false)
    (paired : Interpreter.Paired Machine.SameButTrace (SetUp config config') interpreter other) :
    Interpreter.Paired Machine.SameButTrace (SetUp config config') (performAll calls interpreter)
      (performAll calls other) := by
  induction calls generalizing interpreter other with
  | nil => exact paired
  | cons call rest ih =>
    rw [List.forall_mem_cons] at own
    exact ih own.2 (answeredAlike own.1 paired).2

end Request

/-- Tracing and the capture of errors do not alter execution. Take two interpreters that differ in
nothing but how they are set up and what their traces hold.

With the same error policy they answer every session of requests alike, whatever they trace, runs of
workers included, and are again the same but for their settings behind it.

With two error policies the same holds as long as no worker takes a turn: behind any calls they have
the same registers, memory, hooks and calls of hooks, last error and stop reason, and the next call
ends with the fault of an instruction on both of them or on neither. Its answer is the same if it
does not, and if it does, then the fault is kept and the answer is what each policy makes of it. -/
theorem settings_unobserved (first second : Interpreter) (same : first.SameButSettings second) :
    (first.config.policy = second.config.policy → ∀ requests : List Request,
      Request.results requests first = Request.results requests second ∧
        (Request.performAll requests first).SameButSettings
          (Request.performAll requests second)) ∧
      ∀ (calls : List Request) (call : Request),
        (∀ request ∈ call :: calls, request.letsWork = false) →
        let before := Request.performAll calls first
        let before' := Request.performAll calls second
        before.SameButSettings before' ∧
          (Action.stateAfter (call.perform before)).SameButSettings
            (Action.stateAfter (call.perform before')) ∧
          call.AnsweredAlike first.config.policy second.config.policy before before' := by
  have paired : Interpreter.Paired Machine.SameButTrace
      (Request.SetUp first.config second.config) first second := same.paired ⟨rfl, rfl⟩
  constructor
  · intro policy requests
    have policies {config config' : Config}
        (set : Request.SetUp first.config second.config config config') :
        config.policy = config'.policy := by
      rw [set.1, set.2, policy]
    obtain ⟨results, last⟩ := Request.results_of_samePolicy policies requests paired
    exact ⟨results, last.sameButSettings.1⟩
  · intro calls call own before before'
    rw [List.forall_mem_cons] at own
    have reached := Request.paired_performAll calls own.2 paired
    obtain ⟨answered, after⟩ := Request.answeredAlike own.1 reached
    exact ⟨reached.sameButSettings.1, after.sameButSettings.1, answered⟩

/-- An instruction fails in two interpreters. One traces and keeps the error back, and the other one
returns it. -/
theorem settings_unobserved_failing_instruction :
    let table : DispatchTable :=
      { registry := [], admissible := ⟨by decide, by decide⟩
        entries := .ofFn fun i => Registry.entry [] (.ofNat i), entries_eq := rfl }
    let core : Core := ⟨{}, .flat (.whole Memory.least)⟩
    let first := Interpreter.create core table { verbose := true, history := 4 }
    let second := Interpreter.create core table { policy := .propagate }
    let call : Request := .runOnce none
    first.SameButSettings second ∧
      Use.result (call.perform first) = .ok (.instruction none) ∧
      Use.result (call.perform second) = .error (.fault (.unrecognizedInstruction 0)) ∧
      (Action.stateAfter (call.perform first)).SameButSettings
        (Action.stateAfter (call.perform second)) := by
  intro table core first second call
  have same : first.SameButSettings second := ⟨rfl, rfl, rfl, rfl, rfl, rfl, rfl, rfl⟩
  have failed : call.fault? first = some (.unrecognizedInstruction 0) := by decide +kernel
  obtain ⟨-, after, answered⟩ := (settings_unobserved first second same).2 [] call (by
    intro request member
    rw [List.mem_singleton.mp member]
    rfl)
  obtain ⟨recorded, propagated, -⟩ := answered.failing _ failed
  exact ⟨same, recorded, propagated, after⟩

end W65C816
