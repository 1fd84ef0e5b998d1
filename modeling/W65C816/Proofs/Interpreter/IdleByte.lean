import W65C816.Proofs.Execution.IdleByte
import W65C816.Proofs.Interpreter.Lifecycle
import W65C816.Proofs.Interpreter.Settings

/-!
# Sessions do not see an idle byte

Two interpreters in native mode that differ in `b` alone answer every session of requests alike and
differ in `b` alone behind it. They are in tandem, since their machines are. What a session has come
through cannot be read off its end when a run enters emulation mode and leaves it again, so a
request is also looked at halfway: `Request.cut`. If it is in emulation mode then, the two have met,
`Request.meet`, and are the same in `b` too behind it and behind all that follows.
-/

set_option autoImplicit false

namespace W65C816

/-- The interpreters are the same but for `b`, as their registers have it and as hooks were shown
it, and for what their traces hold. -/
structure Interpreter.SameButB (interpreter other : Interpreter) : Prop where
  registers : other.registers = { interpreter.registers with b := other.registers.b }
  bus : interpreter.machine.bus = other.machine.bus
  /-- Every hook was called as often. -/
  hooks : interpreter.machine.hooks = other.machine.hooks
  calls : interpreter.machine.log.toList.map HookCall.withoutB =
    other.machine.log.toList.map HookCall.withoutB
  control : interpreter.machine.control = other.machine.control
  table : interpreter.table = other.table
  config : interpreter.config = other.config
  lastError : interpreter.lastError = other.lastError
  stopReason : interpreter.stopReason = other.stopReason
  worker : interpreter.worker = other.worker

namespace Interpreter

variable {met met' : Prop} {interpreter other : Interpreter}

/-- The interpreters are the same up to `b`, which is the same where it counts. -/
abbrev UpToB (met : Prop) : Interpreter → Interpreter → Prop :=
  Paired (Machine.SameUpToB met) Eq

/-- Interpreters in native mode that differ in `b` alone agree up to it, if the hooks ignore it.
-/
theorem SameButB.upToB (same : interpreter.SameButB other)
    (native : interpreter.registers.emulation = false)
    (ignoring : interpreter.machine.hooks.IgnoresB) : UpToB False interpreter other := by
  obtain ⟨machine, table, config, error, reason, worker⟩ := interpreter
  obtain ⟨machine', table', config', error', reason', worker'⟩ := other
  obtain ⟨registers, bus, hooks, calls, control, rfl, rfl, rfl, rfl, rfl⟩ := same
  exact ⟨⟨.of_native registers native, bus, hooks, ignoring, control, calls⟩, table, rfl, error,
    reason, worker⟩

/-- The machines of interpreters that agree up to `b` do so. -/
theorem UpToB.machine (h : UpToB met interpreter other) :
    Machine.SameUpToB met interpreter.machine other.machine := by
  obtain ⟨related, table, rfl, error, reason, worker⟩ := h
  exact related

/-- Interpreters that agree up to `b` differ in it at most. -/
theorem UpToB.sameButB (h : UpToB met interpreter other) : interpreter.SameButB other := by
  obtain ⟨related, table, rfl, error, reason, worker⟩ := h
  exact ⟨related.registers.others, related.bus, related.hooks, related.calls, related.control,
    rfl, rfl, rfl, rfl, rfl⟩

/-- Once they have met they have the same registers. -/
theorem UpToB.registers_eq (h : UpToB True interpreter other) :
    other.registers = interpreter.registers :=
  h.machine.registers.eq (.inl trivial)

/-- Emulation mode is where they meet. -/
theorem UpToB.meet (h : UpToB met interpreter other)
    (emulation : interpreter.registers.emulation = true) (met' : Prop) :
    UpToB met' interpreter other := by
  obtain ⟨related, table, set, error, reason, worker⟩ := h
  exact ⟨related.meet emulation met', table, set, error, reason, worker⟩

/-- If a run is in emulation mode after some of its turns, the two meet. -/
theorem UpToB.turns_meet {requests : Nat → Bool} {count limit : Nat}
    (h : UpToB met interpreter other) (bound : count ≤ limit)
    (emulation : (Action.stateAfter (onMachine (fun table => Machine.turns table requests 0 count)
      interpreter)).registers.emulation = true) (met' : Prop) :
    Action.Matches (UpToB met')
      (onMachine (fun table => Machine.turns table requests 0 limit) interpreter)
      (onMachine (fun table => Machine.turns table requests 0 limit) other) := by
  obtain ⟨related, table, rfl, error, reason, worker⟩ := h
  rw [onMachine, Action.stateAfter_place] at emulation
  exact (Machine.turns_meet related bound emulation met').place fun related =>
    ⟨related, table, rfl, error, reason, worker⟩

/-- If the worker is in emulation mode after some of its turns, the two meet. By induction on those
turns. -/
theorem UpToB.settle_meet {count limit : Nat} (h : UpToB met interpreter other)
    (bound : count ≤ limit) (emulation : (settle count interpreter).registers.emulation = true)
    (met' : Prop) : UpToB met' (settle limit interpreter) (settle limit other) := by
  have policies {config config' : Config} (same : config = config') :
      config.policy = config'.policy := congrArg Config.policy same
  induction count generalizing limit interpreter other with
  | zero =>
    exact (h.meet emulation met').settle (Machine.tandem_sameUpToB met') policies limit
  | succ count ih =>
    obtain ⟨limit, rfl⟩ := Nat.exists_eq_add_of_le' (Nat.le_trans (Nat.le_add_left 1 count) bound)
    have busy := Paired.isBusy h
    unfold settle at emulation ⊢
    rw [← busy]
    split
    · next working =>
      rw [if_pos working] at emulation
      exact ih (h.advance (Machine.tandem_sameUpToB met) policies)
        (Nat.le_of_succ_le_succ bound) emulation
    · next quiet =>
      rw [if_neg quiet] at emulation
      exact h.meet emulation met'

/-- Waiting leaves the registers to the worker. -/
theorem registers_wait (limit : Nat) (interpreter : Interpreter) :
    (Action.stateAfter (wait limit interpreter)).registers =
      (settle limit interpreter).registers := by
  rw [stateAfter_wait]
  split <;> rfl

/-- Concluding a run keeps the registers. -/
theorem registers_concludeRun
    (outcome : EStateM.Result Failure Interpreter (Option StopReason)) :
    (Action.stateAfter (concludeRun outcome)).registers =
      (Action.stateAfter outcome).registers := by
  rcases outcome with ⟨_ | _, _⟩ | ⟨_ | _, _⟩ <;> rfl

end Interpreter

namespace Request

/-- The request looked at halfway, when its run or its worker has taken no more turns than that. -/
def cut (turns : Nat) : Request → Request
  | .run start cancels limit => .run start cancels (min turns limit)
  | .wait limit => .wait (min turns limit)
  | .stop limit => .stop (min turns limit)
  | request => request

variable {met : Prop} {request : Request} {interpreter other : Interpreter}

/-- The policy decides on the answer to a request and on nothing else. -/
theorem stateAfter_perform (request : Request) (interpreter : Interpreter) :
    Action.stateAfter (request.perform interpreter) =
      Action.stateAfter (request.attempt interpreter) := by
  rw [perform_eq_attempt]
  rcases request.attempt interpreter with ⟨_ | _, _⟩ | ⟨_, _⟩
  · exact Interpreter.stateAfter_report _ _ _
  · rfl
  · rfl

/-- Requests are performed one list after the other. -/
theorem performAll_append (earlier later : List Request) (interpreter : Interpreter) :
    performAll (earlier ++ later) interpreter =
      performAll later (performAll earlier interpreter) := by
  induction earlier generalizing interpreter with
  | nil => rfl
  | cons request rest ih => exact ih _

/-- A request is answered alike by interpreters that are the same up to `b`. -/
theorem keepsStep_upToB (installs : ∀ hooks, request = .install hooks → hooks.IgnoresB) :
    Interpreter.KeepsStep (Machine.SameUpToB met) Eq request.perform := by
  refine keepsStep_perform_of_attempt (fun same => congrArg Config.policy same) ?_
  refine keepsStep_attempt_of_tandem (Machine.tandem_sameUpToB met) ?_ ?_
    fun _ _ _ same => congrArg Config.policy same
  · intro bus _ machine other same
    exact { same with bus := rfl }
  · intro hooks asked machine other same
    exact { same with hooks := rfl, ignoring := installs hooks asked }

/-- If a run is in emulation mode after some of its turns, the two meet in it. -/
theorem run_meet {start : Option UInt32} {cancels : Nat → Bool} {count limit : Nat}
    (h : Interpreter.UpToB met interpreter other) (bound : count ≤ limit)
    (emulation : (Action.stateAfter
      ((Request.run start cancels count).perform interpreter)).registers.emulation = true)
    (met' : Prop) :
    Interpreter.UpToB met'
      (Action.stateAfter ((Request.run start cancels limit).perform interpreter))
      (Action.stateAfter ((Request.run start cancels limit).perform other)) := by
  have tandem := Machine.tandem_sameUpToB met
  have hbegin := Interpreter.keepsStep_beginRun tandem start interpreter other h
  rw [stateAfter_perform] at emulation ⊢
  rw [stateAfter_perform]
  simp only [attempt] at emulation ⊢
  cases found' : Interpreter.beginRun start other with
  | error failure next' =>
    rw [found'] at hbegin
    obtain ⟨next, found, refused⟩ := hbegin.of_error
    simp only [Interpreter.attemptRun, found, found'] at emulation ⊢
    exact Interpreter.UpToB.meet refused emulation met'
  | ok _ next' =>
    rw [found'] at hbegin
    obtain ⟨next, found, begun⟩ := hbegin.of_ok
    rw [Interpreter.attemptRun_of_begun found, Interpreter.registers_concludeRun] at emulation
    rw [Interpreter.attemptRun_of_begun found, Interpreter.attemptRun_of_begun found']
    have ready : Interpreter.UpToB met _ _ := begun.resume tandem
    have ran := Interpreter.matches_concludeRun (Machine.tandem_sameUpToB met')
      (ready.turns_meet bound emulation met')
    exact ran.stateAfter

/-- If the worker is in emulation mode after some of its turns, the two meet while they wait. -/
theorem wait_meet {count limit : Nat} (h : Interpreter.UpToB met interpreter other)
    (bound : count ≤ limit)
    (emulation :
      (Action.stateAfter (Interpreter.wait count interpreter)).registers.emulation = true)
    (met' : Prop) :
    Interpreter.UpToB met' (Action.stateAfter (Interpreter.wait limit interpreter))
      (Action.stateAfter (Interpreter.wait limit other)) := by
  rw [Interpreter.registers_wait] at emulation
  exact (Interpreter.matches_wait (h.settle_meet bound emulation met')).stateAfter

/-- If a request looked at halfway is in emulation mode, the two are met behind it. -/
theorem meet (installs : ∀ hooks, request = .install hooks → hooks.IgnoresB) {turns : Nat}
    (h : Interpreter.UpToB met interpreter other)
    (emulation :
      (Action.stateAfter ((request.cut turns).perform interpreter)).registers.emulation = true)
    (met' : Prop) :
    Interpreter.UpToB met' (Action.stateAfter (request.perform interpreter))
      (Action.stateAfter (request.perform other)) := by
  have tandem := Machine.tandem_sameUpToB met
  cases request with
  | run start cancels limit => exact run_meet h (Nat.min_le_right turns limit) emulation met'
  | wait limit =>
    simp only [perform, stateAfter_map, cut] at emulation ⊢
    exact wait_meet h (Nat.min_le_right turns limit) emulation met'
  | stop limit =>
    simp only [perform, stateAfter_map, cut] at emulation ⊢
    have cancelled : Interpreter.UpToB met interpreter.cancel other.cancel :=
      h.alterControl tandem Control.cancel
    exact wait_meet cancelled (Nat.min_le_right turns limit) emulation met'
  | runOnce _ | spawn _ | advance | cancel | attach _ | install _ =>
    have next : Interpreter.UpToB met _ _ := (keepsStep_upToB installs _ _ h).stateAfter
    exact next.meet emulation met'

/-- A session is answered alike by interpreters that are the same up to `b`. -/
theorem results_upToB (requests : List Request)
    (installs : ∀ hooks, .install hooks ∈ requests → hooks.IgnoresB)
    (h : Interpreter.UpToB met interpreter other) :
    results requests interpreter = results requests other ∧
      Interpreter.UpToB met (performAll requests interpreter) (performAll requests other) := by
  refine results_of_keepsStep requests (fun request member => keepsStep_upToB ?_) h
  rintro hooks rfl
  exact installs hooks member

end Request

/-- The byte `b` is dead in native mode, unless a hook acts on it. Two interpreters in native mode
that differ in `b` alone, with hooks that do not act on it, answer every session of requests alike,
on every bus, with every table and program. Behind the session they have the same memory, the same
registers but for `b`, the same reason to stop and last error, and they have made the same calls of
hooks, up to the `b` that these were shown. If they were in emulation mode at any time, between two
requests or after any number of turns of a request, they also have the same `b`. -/
theorem idle_b_unobserved {first second : Interpreter} (same : first.SameButB second)
    (native : first.registers.emulation = false) (ignoring : first.machine.hooks.IgnoresB)
    (requests : List Request)
    (installs : ∀ hooks, Request.install hooks ∈ requests → hooks.IgnoresB) :
    Request.results requests first = Request.results requests second ∧
      (Request.performAll requests first).SameButB (Request.performAll requests second) ∧
      ∀ earlier request later turns, requests = earlier ++ request :: later →
        (Request.performAll (earlier ++ [request.cut turns]) first).registers.emulation = true →
        (Request.performAll requests second).registers =
          (Request.performAll requests first).registers := by
  have start := same.upToB native ignoring
  obtain ⟨answered, last⟩ := Request.results_upToB requests installs start
  refine ⟨answered, last.sameButB, ?_⟩
  rintro earlier request later turns rfl emulation
  simp only [List.mem_append, List.mem_cons] at installs
  have reached := (Request.results_upToB earlier
    (fun hooks member => installs hooks (.inl member)) start).2
  rw [Request.performAll_append] at emulation
  have met := Request.meet (fun hooks asked => installs hooks (.inr (.inl asked.symm))) reached
    emulation True
  have onward := (Request.results_upToB later
    (fun hooks member => installs hooks (.inr (.inr member))) met).2
  rw [Request.performAll_append, Request.performAll_append]
  exact onward.registers_eq

/-- A program calls a hook, enters emulation mode and leaves it again. It runs on two processors
with another `b` each; a run of its first three instructions ends in emulation mode. -/
theorem idle_b_unobserved_through_emulation :
    let program : List UInt8 := [0x42, 0x01, 0x38, 0xFB, 0x18, 0xFB, 0xDB]
    let registry : Registry :=
      [⟨0x42, .wdm, .immediate⟩, ⟨0x38, .sec, .implied⟩, ⟨0xFB, .xce, .implied⟩,
        ⟨0x18, .clc, .implied⟩, ⟨0xDB, .stp, .implied⟩]
    let table : DispatchTable :=
      { registry, admissible := ⟨by decide, by decide⟩
        entries := .ofFn fun i => registry.entry (.ofNat i), entries_eq := rfl }
    let bus := Bus.flat (.whole (Memory.least.setAll 0 program))
    let hooks := ({} : HookTable).put 0 (some { react := fun number _ => { panic := number == 2 } })
    let processor (b : UInt8) : Interpreter :=
      (Interpreter.create ⟨{ a := 0x1234, b, emulation := false }, bus⟩ table {}).alterMachine
        fun machine => { machine with hooks }
    let run : Request := .run none (fun _ => false) 8
    let last := Request.performAll [run] (processor 0)
    let last' := Request.performAll [run] (processor 0xFF)
    (processor 0).SameButB (processor 0xFF) ∧
      (Request.performAll [run.cut 3] (processor 0)).registers.emulation = true ∧
      last.registers.emulation = false ∧ last'.registers = last.registers := by
  intro program registry table bus hooks processor run last last'
  have same : (processor 0).SameButB (processor 0xFF) :=
    ⟨rfl, rfl, rfl, rfl, rfl, rfl, rfl, rfl, rfl, rfl⟩
  have ignoring : hooks.IgnoresB :=
    HookTable.forall_put HookTable.ignoresB_default 0 fun _ _ _ _ => rfl
  have entered : (Request.performAll [run.cut 3] (processor 0)).registers.emulation = true ∧
      last.registers.emulation = false := by
    decide +kernel
  obtain ⟨-, -, met⟩ := idle_b_unobserved same rfl ignoring [run] (by simp [run])
  exact ⟨same, entered.1, entered.2, met [] run [] 3 rfl entered.1⟩

/-- A hook is shown all the registers, `b` among them, and may act on it. This one requests a
cancellation when `b` is zero, so of two processors that differ in `b` alone one is cancelled and
the other goes on to the `STP`. -/
theorem not_idle_b_unobserved :
    let registry : Registry := [⟨0x42, .wdm, .immediate⟩, ⟨0xDB, .stp, .implied⟩]
    let table : DispatchTable :=
      { registry, admissible := ⟨by decide, by decide⟩
        entries := .ofFn fun i => registry.entry (.ofNat i), entries_eq := rfl }
    let bus := Bus.flat (.whole (Memory.least.setAll 0 [0x42, 0x01, 0xDB]))
    let hook : Hook := { react := fun _ sighting => { cancel := sighting.registers.b == 0 } }
    let processor (b : UInt8) : Interpreter :=
      (Interpreter.create ⟨{ b, emulation := false }, bus⟩ table {}).alterMachine
        fun machine => { machine with hooks := machine.hooks.put 0 (some hook) }
    let run : Request := .run none (fun _ => false) 4
    let last := Request.performAll [run] (processor 0)
    let last' := Request.performAll [run] (processor 1)
    (processor 0).SameButB (processor 1) ∧ (processor 0).registers.emulation = false ∧
      last.stopReason = some .cancelled ∧ last'.stopReason = some .stopped ∧
      ¬ last.SameButB last' := by
  intro registry table bus hook processor run last last'
  have same : (processor 0).SameButB (processor 1) :=
    ⟨rfl, rfl, rfl, rfl, rfl, rfl, rfl, rfl, rfl, rfl⟩
  have ended : last.stopReason = some .cancelled ∧ last'.stopReason = some .stopped := by
    decide +kernel
  obtain ⟨cancelled, stopped⟩ := ended
  refine ⟨same, rfl, cancelled, stopped, fun alike => ?_⟩
  cases (cancelled.symm.trans alike.stopReason).trans stopped

end W65C816
