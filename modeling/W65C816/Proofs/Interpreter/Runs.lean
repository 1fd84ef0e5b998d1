import W65C816.Catalog.Standard
import W65C816.Proofs.Interpreter.Calls

/-!
# A run is calls in a row

A run on an idle interpreter goes through the states that calls of `runOnce` go through, once the
interpreter stands at the start address and has forgotten an earlier halt. `Interpreter.Follows` is
the invariant of the loop: before each turn the machine of the run is alike the interpreter after
that many calls, and it knows of a cancellation exactly when one was requested from outside or a
hook asked for one in an earlier call. `Interpreter.Follows.turn` is the step and
`Interpreter.turns_follow` the whole loop, for every ending and every number of turns after which
the run is looked at.
-/

set_option autoImplicit false

namespace W65C816.Interpreter

/-! ## How a run ends -/

/-- No call is active, and no failure of a concurrent run is left to be collected. -/
structure IsReady (interpreter : Interpreter) : Prop where
  idle : interpreter.phase = .idle
  collected : ∀ fault, interpreter.worker ≠ some (.finished (.error fault))

/-- The turn numbered `k` finds a cancellation requested: from outside before this turn or an
earlier one, or by a hook in an earlier call. -/
def SeesCancel (first : Interpreter) (cancels : Nat → Bool) (k : Nat) : Prop :=
  (∃ j ≤ k, cancels j = true) ∨ ∃ j < k, (first.afterCalls j).CancelsItself

/-- What ends a run after `n` calls, for each reason. A cancellation is found before a further call
and after calls that all go on; everything else is the doing of the last call. -/
inductive Ends (first : Interpreter) (cancels : Nat → Bool) : Nat → StopReason → Prop
  | cancelled {n : Nat} (onward : ∀ k < n, (first.afterCalls k).GoesOn)
    (seen : first.SeesCancel cancels n) : Ends first cancels n .cancelled
  | stopped {n : Nat} (succeeds : (first.afterCalls n).succeeds = true)
    (halted : (first.afterCalls (n + 1)).registers.stopped = true) :
    Ends first cancels (n + 1) .stopped
  | waitingForInterrupt {n : Nat} (succeeds : (first.afterCalls n).succeeds = true)
    (running : (first.afterCalls (n + 1)).registers.stopped = false)
    (halted : (first.afterCalls (n + 1)).registers.waiting = true) :
    Ends first cancels (n + 1) .waitingForInterrupt
  | error {n : Nat} {fault : Fault} (fails : (first.afterCalls n).FailsWith fault) :
    Ends first cancels (n + 1) .error

/-! ## The loop -/

/-- Before turn number `k` the machine of a run is alike the interpreter after `k` calls, each of
which went on without a cancellation in sight. -/
structure Follows (first : Interpreter) (cancels : Nat → Bool) (k : Nat) (machine : Machine) :
    Prop where
  alike : machine.Alike (first.afterCalls k).machine
  running : machine.control.running = true
  cancelled : machine.control.cancelled = true ↔
    (∃ j < k, cancels j = true) ∨ ∃ j < k, (first.afterCalls j).CancelsItself
  unseen : ∀ j < k, ¬ first.SeesCancel cancels j
  onward : ∀ j < k, (first.afterCalls j).GoesOn

variable {first : Interpreter} {cancels : Nat → Bool} {k : Nat} {machine : Machine}

/-- The machine when the request before a turn has come, if there is one. -/
def polled (cancels : Nat → Bool) (k : Nat) (machine : Machine) : Machine :=
  if cancels k then { machine with control := machine.control.cancel } else machine

/-- A request for cancellation shows in the control alone. -/
theorem alike_polled (cancels : Nat → Bool) (k : Nat) (machine : Machine) :
    (polled cancels k machine).Alike machine := by
  unfold polled
  split <;> exact ⟨rfl, rfl, rfl, rfl⟩

/-- A request for cancellation does not end a run. -/
theorem running_polled (cancels : Nat → Bool) (k : Nat) (machine : Machine) :
    (polled cancels k machine).control.running = machine.control.running := by
  unfold polled
  split <;> rfl

/-- A request before a turn is found by that turn. -/
theorem Follows.polled_cancelled (h : Follows first cancels k machine) :
    (polled cancels k machine).control.cancelled = true ↔ first.SeesCancel cancels k := by
  unfold polled SeesCancel
  by_cases asked : cancels k = true
  · rw [if_pos asked]
    exact ⟨fun _ => .inl ⟨k, Nat.le_refl k, asked⟩, fun _ => rfl⟩
  · rw [if_neg asked, h.cancelled]
    refine or_congr_left ⟨?_, ?_⟩
    · rintro ⟨j, hj, hcancel⟩
      exact ⟨j, Nat.le_of_lt hj, hcancel⟩
    · rintro ⟨j, hj, hcancel⟩
      have before : j ≠ k := fun same => asked (same ▸ hcancel)
      exact ⟨j, Nat.lt_of_le_of_ne hj before, hcancel⟩

/-- A turn finds a cancellation, or it goes as the next call does. -/
theorem Follows.turn (rests : first.Rests) (h : Follows first cancels k machine) :
    (Machine.turn first.table (polled cancels k machine) =
        .ok (some .cancelled) (polled cancels k machine) ∧ first.SeesCancel cancels k) ∨
      ¬ first.SeesCancel cancels k ∧
        ((∃ next, Machine.turn first.table (polled cancels k machine) =
              .ok next.registers.halt? next ∧
            next.Alike (first.afterCalls (k + 1)).machine ∧ next.control.running = true ∧
            (next.control.cancelled = true ↔ (first.afterCalls k).CancelsItself) ∧
            (first.afterCalls k).succeeds = true) ∨
          ∃ fault next, Machine.turn first.table (polled cancels k machine) =
              .error (.fault fault) next ∧
            next.Alike (first.afterCalls (k + 1)).machine ∧
            (first.afterCalls k).FailsWith fault) := by
  have hseen := h.polled_cancelled
  rw [Machine.turn_eq]
  by_cases cancelled : (polled cancels k machine).control.cancelled = true
  · rw [if_pos cancelled]
    exact .inl ⟨rfl, hseen.mp cancelled⟩
  · rw [if_neg cancelled]
    refine .inr ⟨fun seen => cancelled (hseen.mpr seen), ?_⟩
    have alike := (alike_polled cancels k machine).trans h.alike
    have running := (running_polled cancels k machine).trans h.running
    have control : (polled cancels k machine).control =
        { running := true, cancelled := false } := by
      generalize (polled cancels k machine).control = control at running cancelled
      obtain ⟨r, c⟩ := control
      simp only at running cancelled
      rw [running, eq_false_of_ne_true cancelled]
    have hstep := step_cases (rests.afterCalls k) alike control
    rw [table_afterCalls rests k] at hstep
    rcases hstep with ⟨record, next, hstep, halike, hrunning, hcancelled, hsucceeds⟩ |
      ⟨fault, next, hstep, halike, hfails⟩
    · refine .inl ⟨next, ?_, halike, hrunning, hcancelled, hsucceeds⟩
      rw [Action.bind_apply, hstep]
      rfl
    · refine .inr ⟨fault, next, ?_, halike, hfails⟩
      rw [Action.bind_apply, hstep]

/-- After `n` calls the machine is alike: they found no cancellation before any of them, and all but
the last went on. -/
structure Reaches (first : Interpreter) (cancels : Nat → Bool) (n : Nat) (machine : Machine) :
    Prop where
  alike : machine.Alike (first.afterCalls n).machine
  unseen : ∀ k < n, ¬ first.SeesCancel cancels k
  onward : ∀ k, k + 1 < n → (first.afterCalls k).GoesOn

/-- A run that follows the calls has reached the last of them. -/
theorem Follows.reaches (h : Follows first cancels k machine) {next : Machine}
    (alike : next.Alike machine) : Reaches first cancels k next where
  alike := alike.trans h.alike
  unseen := h.unseen
  onward := fun j hj => h.onward j (Nat.lt_of_succ_lt hj)

/-- The next call is reached as well, unless a cancellation is seen before it. -/
theorem Follows.reaches_succ (h : Follows first cancels k machine)
    (unseen : ¬ first.SeesCancel cancels k) {next : Machine}
    (alike : next.Alike (first.afterCalls (k + 1)).machine) :
    Reaches first cancels (k + 1) next where
  alike := alike
  unseen := by
    intro j hj
    rcases Nat.lt_succ_iff_lt_or_eq.mp hj with before | rfl
    · exact h.unseen j before
    · exact unseen
  onward := fun j hj => h.onward j (Nat.lt_of_succ_lt_succ hj)

/-- A turn that ends nothing keeps the invariant. -/
theorem Follows.succ (h : Follows first cancels k machine)
    (unseen : ¬ first.SeesCancel cancels k) (goesOn : (first.afterCalls k).GoesOn) {next : Machine}
    (alike : next.Alike (first.afterCalls (k + 1)).machine)
    (running : next.control.running = true)
    (cancelled : next.control.cancelled = true ↔ (first.afterCalls k).CancelsItself) :
    Follows first cancels (k + 1) next where
  alike := alike
  running := running
  cancelled := by
    unfold SeesCancel at unseen
    rw [cancelled]
    constructor
    · exact fun asks => .inr ⟨k, Nat.lt_succ_self k, asks⟩
    · rintro (⟨j, hj, hcancel⟩ | ⟨j, hj, hcancel⟩)
      · exact absurd (.inl ⟨j, Nat.le_of_lt_succ hj, hcancel⟩) unseen
      · rcases Nat.lt_succ_iff_lt_or_eq.mp hj with before | rfl
        · exact absurd (.inr ⟨j, before, hcancel⟩) unseen
        · exact hcancel
  unseen := (h.reaches_succ unseen alike).unseen
  onward := by
    intro j hj
    rcases Nat.lt_succ_iff_lt_or_eq.mp hj with before | rfl
    · exact h.onward j before
    · exact goesOn

/-- How the loop comes to an end after `n` calls: at the last turn that it was given, for a reason
that keeps no error, or with the error of the last call. -/
inductive LoopEnds (first : Interpreter) (cancels : Nat → Bool) (last n : Nat) :
    EStateM.Result Failure Machine (Option StopReason) → Prop
  | unfinished (machine : Machine) (whole : n = last)
    (onward : ∀ k < n, (first.afterCalls k).GoesOn) :
    LoopEnds first cancels last n (.ok none machine)
  | ended (machine : Machine) {reason : StopReason} (ends : Ends first cancels n reason)
    (clean : reason ≠ .error) (keeps : (first.afterCalls n).lastError = first.lastError) :
    LoopEnds first cancels last n (.ok (some reason) machine)
  | failed (machine : Machine) {fault : Fault} (ends : Ends first cancels n .error)
    (keeps : (first.afterCalls n).lastError = some fault) :
    LoopEnds first cancels last n (.error (.fault fault) machine)

/-- The registers after a turn show no halt, or the halt that ended the run. -/
theorem Follows.halt_cases (rests : first.Rests) (h : Follows first cancels k machine)
    (last : Nat) {next : Machine} (alike : next.Alike (first.afterCalls (k + 1)).machine)
    (hsucceeds : (first.afterCalls k).succeeds = true) :
    next.registers.halt? = none ∧ (first.afterCalls k).GoesOn ∨
      ∃ reason, next.registers.halt? = some reason ∧
        LoopEnds first cancels last (k + 1) (.ok (some reason) next) := by
  have same : next.registers = (first.afterCalls (k + 1)).registers := alike.registers
  have keeps := (lastError_afterCall (rests.afterCalls k) hsucceeds).trans
    (lastError_afterCalls rests h.onward)
  unfold Registers.halt?
  rw [same]
  by_cases stopped : (first.afterCalls (k + 1)).registers.stopped = true
  · rw [if_pos stopped]
    exact .inr ⟨_, rfl, .ended next (.stopped hsucceeds stopped) nofun keeps⟩
  · have running := eq_false_of_ne_true stopped
    rw [if_neg stopped]
    by_cases waiting : (first.afterCalls (k + 1)).registers.waiting = true
    · rw [if_pos waiting]
      exact .inr ⟨_, rfl, .ended next (.waitingForInterrupt hsucceeds running waiting) nofun keeps⟩
    · rw [if_neg waiting]
      exact .inl ⟨rfl, hsucceeds, running, eq_false_of_ne_true waiting⟩

/-- The loop follows the calls until it ends, by induction on the number of turns that it may still
take. -/
theorem turns_follow (rests : first.Rests) (limit : Nat) (h : Follows first cancels k machine) :
    ∃ n ≤ k + limit,
      Reaches first cancels n
          (Action.stateAfter (Machine.turns first.table cancels k limit machine)) ∧
        LoopEnds first cancels (k + limit) n
          (Machine.turns first.table cancels k limit machine) := by
  induction limit generalizing k machine with
  | zero =>
    exact ⟨k, Nat.le_refl k, h.reaches (.refl machine), .unfinished machine rfl h.onward⟩
  | succ limit ih =>
    have bound : k + 1 ≤ k + (limit + 1) := by omega
    rw [Machine.turns_succ, ← polled]
    rcases h.turn rests with ⟨hturn, seen⟩ | ⟨unseen, hcall⟩
    · -- The cancellation ends the run before the next call.
      rw [hturn]
      have keeps := lastError_afterCalls rests h.onward
      exact ⟨k, by omega, h.reaches (alike_polled cancels k machine),
        .ended _ (.cancelled h.onward seen) nofun keeps⟩
    rcases hcall with ⟨next, hturn, alike, running, cancelled, hsucceeds⟩ |
      ⟨fault, next, hturn, alike, hfails⟩
    · rw [hturn]
      rcases h.halt_cases rests (k + (limit + 1)) alike hsucceeds with
        ⟨hhalt, goesOn⟩ | ⟨reason, hhalt, hends⟩
      · rw [hhalt]
        have hnext := ih (h.succ unseen goesOn alike running cancelled)
        rw [Nat.succ_add_eq_add_succ] at hnext
        exact hnext
      · rw [hhalt]
        exact ⟨k + 1, bound, h.reaches_succ unseen alike, hends⟩
    · rw [hturn]
      exact ⟨k + 1, bound, h.reaches_succ unseen alike,
        .failed next (.error hfails) hfails.2⟩

/-! ## The run -/

/-- The machine when a run has begun. -/
def launched (start : Option UInt32) (interpreter : Interpreter) : Machine :=
  match interpreter.machine with
  | ⟨⟨registers, bus⟩, hooks, _, log, trace⟩ =>
    ⟨⟨(registers.startAt start).resume, bus⟩, hooks, { running := true, cancelled := false }, log,
      trace⟩

/-- An interpreter that is ready rests, from a start address on, if its hooks are calm. -/
theorem IsReady.rests {interpreter : Interpreter} (ready : interpreter.IsReady)
    (calm : interpreter.machine.hooks.Calm) (change : Registers → Registers) :
    (interpreter.alterRegisters change).Rests :=
  ⟨(Control.phase_eq_idle_iff _).mp ready.idle, calm⟩

/-- Before its first turn a run follows the calls. -/
theorem follows_launched (interpreter : Interpreter) (start : Option UInt32)
    (cancels : Nat → Bool) :
    Follows (interpreter.alterRegisters fun r => (r.startAt start).resume) cancels 0
      (interpreter.launched start) := by
  refine ⟨⟨rfl, rfl, rfl, rfl⟩, rfl, ?_, nofun, nofun⟩
  simp [launched]

/-- A run on an interpreter that is ready begins, and nothing is left of an earlier request for
cancellation. -/
theorem beginRun_eq {interpreter : Interpreter} (ready : interpreter.IsReady)
    (start : Option UInt32) :
    beginRun start interpreter.cancel = beginRun start interpreter ∧
      ∃ machine worker,
        beginRun start interpreter =
          .ok () { interpreter with machine, stopReason := none, worker } ∧
        ({ interpreter with machine, stopReason := none, worker }.alterRegisters
          Registers.resume).machine = interpreter.launched start := by
  obtain ⟨⟨⟨registers, bus⟩, hooks, ⟨running, cancelled⟩, log, trace⟩, table, config, error, reason,
    worker⟩ := interpreter
  have idle : running = false := (Control.phase_eq_idle_iff _).mp ready.idle
  subst idle
  rcases worker with _ | _ | _ | fault | done
  · exact ⟨rfl, _, _, rfl, rfl⟩
  · exact ⟨rfl, _, _, rfl, rfl⟩
  · exact ⟨rfl, _, _, rfl, rfl⟩
  · exact absurd rfl (ready.collected fault)
  · exact ⟨rfl, _, _, rfl, rfl⟩

/-- A run on an interpreter that is ready is the loop, with what is made of its end. -/
theorem run_eq {interpreter : Interpreter} (ready : interpreter.IsReady) (start : Option UInt32)
    (cancels : Nat → Bool) (limit : Nat) :
    ∃ worker, run start cancels limit interpreter =
      ({ interpreter with stopReason := none, worker } : Interpreter).handedBack
        (Machine.turns interpreter.table cancels 0 limit (interpreter.launched start)) := by
  obtain ⟨-, machine, worker, hbegin, hlaunch⟩ := beginRun_eq ready start
  refine ⟨worker, ?_⟩
  rw [run_of_begun hbegin, hlaunch]
  rfl

/-- What a run leaves behind: up to its run control the machine is the one at the end of the loop,
and the loop decides on the answer, the error that is kept and the stop reason. -/
theorem run_outcome {interpreter : Interpreter} (ready : interpreter.IsReady)
    (start : Option UInt32) (cancels : Nat → Bool) (limit : Nat) :
    let loop := Machine.turns interpreter.table cancels 0 limit (interpreter.launched start)
    let outcome := run start cancels limit interpreter
    let last := Action.stateAfter outcome
    last.machine.Alike (Action.stateAfter loop) ∧
      match loop with
      | .ok none _ => outcome = .ok false last ∧ last.lastError = interpreter.lastError
      | .ok (some reason) _ => outcome = .ok true last ∧ last.lastError = interpreter.lastError ∧
        last.stopReason = some reason ∧ last.phase = .idle
      | .error (.fault fault) _ => outcome = report fault true last ∧
        last.lastError = some fault ∧ last.stopReason = some .error ∧ last.phase = .idle
      | .error .panic _ => outcome = .error .panic last := by
  obtain ⟨worker, hrun⟩ := run_eq ready start cancels limit
  dsimp only
  rw [hrun]
  generalize Machine.turns interpreter.table cancels 0 limit (interpreter.launched start) = loop
  rcases loop with ⟨_ | reason, next⟩ | ⟨fault | _, next⟩
  · exact ⟨⟨rfl, rfl, rfl, rfl⟩, rfl, rfl⟩
  · exact ⟨⟨rfl, rfl, rfl, rfl⟩, rfl, rfl, rfl, rfl⟩
  · simp only [handedBack, stateAfter_report]
    exact ⟨⟨rfl, rfl, rfl, rfl⟩, trivial, rfl, rfl, rfl⟩
  · exact ⟨⟨rfl, rfl, rfl, rfl⟩, rfl⟩

end W65C816.Interpreter
