import W65C816.Proofs.Execution.Guarded
import W65C816.Proofs.Execution.Instrumentation

/-!
# What happens while a machine is at work

The state of a machine does not tell how it came about: when a call began, whether a cancellation
was requested before that or after it, which instructions were attempted, and what anyone was told
who asked in between. An `Event` is one such happening. `Machine.stepEvents`, `Machine.turnEvents`
and `Machine.turnsEvents` list those of an instruction, of a turn, and of a run.

`Machine.Proceeds` says which ways lead from one machine to another and what happens on them. It is
the one account of the work of a machine that laws about its past have to go through:
`Machine.proceeds_turns` says that a run is such a way. A law about the past is an instance of
`Event.Throughout`.
-/

set_option autoImplicit false

namespace W65C816

/-- Something that happens to a machine. -/
inductive Event where
  /-- A call for one instruction begins. -/
  | once
  /-- A run begins. -/
  | run
  /-- A cancellation is requested. -/
  | request
  /-- The next instruction of this machine is attempted. -/
  | attempt (machine : Machine)
  /-- Someone asks what the interpreter is doing and is told this. -/
  | seen (phase : Phase)

namespace Event

/-- A run begins. -/
def BeginsRun (event : Event) : Prop :=
  event = .run

/-- A call begins. -/
def BeginsCall (event : Event) : Prop :=
  event = .once ∨ event = .run

/-- Each of the events obeys a law about what has happened before it. -/
def Throughout (law : List Event → Event → Prop) (past events : List Event) : Prop :=
  ∀ before event after, events = before ++ event :: after → law (past ++ before) event

variable {law : List Event → Event → Prop} {past : List Event}

/-- No events break no law. -/
theorem throughout_nil : Throughout law past [] := by
  intro before event after h
  cases before <;> cases h

/-- The first event obeys the law, and the others do with it in their past. -/
theorem throughout_cons {event : Event} {events : List Event} :
    Throughout law past (event :: events) ↔
      law past event ∧ Throughout law (past ++ [event]) events := by
  constructor
  · intro h
    refine ⟨List.append_nil past ▸ h [] event events rfl, ?_⟩
    intro before later after same
    rw [List.append_assoc]
    exact h (event :: before) later after (congrArg (event :: ·) same)
  · rintro ⟨first, rest⟩ before later after same
    cases before with
    | nil =>
      cases same
      rw [List.append_nil]
      exact first
    | cons _ before =>
      cases same
      have earlier := rest before later after rfl
      rw [List.append_assoc] at earlier
      exact earlier

/-- One event obeys a law about its past. -/
theorem throughout_singleton {event : Event} : Throughout law past [event] ↔ law past event :=
  throughout_cons.trans (and_iff_left throughout_nil)

/-- Later events have the earlier ones in their past. -/
theorem throughout_append {events more : List Event} :
    Throughout law past (events ++ more) ↔
      Throughout law past events ∧ Throughout law (past ++ events) more := by
  induction events generalizing past with
  | nil =>
    rw [List.nil_append, List.append_nil]
    exact (and_iff_right throughout_nil).symm
  | cons event events ih =>
    rw [List.cons_append, throughout_cons, throughout_cons, ih, and_assoc, List.append_assoc]
    rfl

/-- The event has happened, and nothing that makes it void has happened since then. -/
def Standing (voids : Event → Prop) (event : Event) (past : List Event) : Prop :=
  ∃ before after, past = before ++ event :: after ∧ ∀ later ∈ after, ¬ voids later

variable {voids : Event → Prop} {event : Event}

/-- What has not happened does not stand. -/
theorem not_standing_nil : ¬ Standing voids event [] := by
  rintro ⟨before, after, same, -⟩
  cases before <;> cases same

/-- An event stands if it is the last one, or if it stood before and the last one does not make it
void. -/
theorem standing_concat {last : Event} :
    Standing voids event (past ++ [last]) ↔
      last = event ∨ Standing voids event past ∧ ¬ voids last := by
  constructor
  · rintro ⟨before, after, same, quiet⟩
    rcases List.eq_nil_or_concat after with rfl | ⟨earlier, latest, rfl⟩
    · have both := List.append_inj' same rfl
      cases both.2
      exact .inl rfl
    · rw [List.concat_eq_append, ← List.cons_append, ← List.append_assoc] at same
      have both := List.append_inj' same rfl
      cases both.2
      refine .inr ⟨⟨before, earlier, both.1, fun later member => quiet later ?_⟩, quiet last ?_⟩
      · simp [member]
      · simp
  · rintro (rfl | ⟨⟨before, after, rfl, quiet⟩, still⟩)
    · exact ⟨past, [], rfl, fun _ => nofun⟩
    · refine ⟨before, after ++ [last], by simp, fun later member => ?_⟩
      rcases List.mem_append.mp member with earlier | latest
      · exact quiet later earlier
      · rw [List.mem_singleton] at latest
        exact latest ▸ still

end Event

namespace Machine

/-! ## Instructions and runs -/

/-- The machine when a call for one instruction has begun. -/
def onceFrom (start : Option UInt32) (machine : Machine) : Machine :=
  { machine with
    core := ⟨machine.registers.startAt start, machine.bus⟩
    control := { machine.control with running := true } }

/-- The machine when a run has begun. -/
def runFrom (start : Option UInt32) (machine : Machine) : Machine :=
  { machine with
    core := ⟨machine.registers.startAt start, machine.bus⟩
    control := { running := true, cancelled := false } }

/-- The machine when the active call has ended. -/
def released (machine : Machine) : Machine :=
  { machine with control := machine.control.release }

/-- The machine when a cancellation has been requested. -/
def cancelled (machine : Machine) : Machine :=
  { machine with control := machine.control.cancel }

/-- Whether a hook requests a cancellation during the next instruction. -/
def asksToCancel (table : DispatchTable) (machine : Machine) : Bool :=
  (machine.summons table).any fun call => call.reaction.cancel

/-- What happens while an instruction is attempted. Anyone may ask meanwhile what the interpreter is
doing, and a hook that is called is told; if it requests a cancellation, it may ask again. -/
def stepEvents (table : DispatchTable) (machine : Machine) : List Event :=
  .attempt machine :: .seen machine.control.phase ::
    if machine.asksToCancel table then [.request, .seen machine.control.cancel.phase] else []

/-- What happens in a turn of a run. -/
def turnEvents (table : DispatchTable) (machine : Machine) : List Event :=
  if machine.control.cancelled then [.seen machine.control.phase] else machine.stepEvents table

/-- What happens in the turns of a run, with the requests that come before some of them. -/
def turnsEvents (table : DispatchTable) (requests : Nat → Bool) (first : Nat) :
    Nat → Machine → List Event
  | 0, _ => []
  | limit + 1, machine =>
    let polled := if requests first then machine.cancelled else machine
    (if requests first then [.request] else []) ++ polled.turnEvents table ++
      match turn table polled with
      | .ok none next => turnsEvents table requests (first + 1) limit next
      | .ok (some _) _ | .error _ _ => []

/-! ## Ways of a machine -/

/-- The ways from one machine to another, with what happens on them. A call ends with an instruction
that fails, and a call for one instruction ends with it in any case. A run attempts no instruction
when a cancellation was requested. -/
inductive Proceeds (table : DispatchTable) : List Event → Machine → Machine → Prop
  | rests (machine : Machine) : Proceeds table [] machine machine
  | trans {events more : List Event} {machine next last : Machine}
      (h : Proceeds table events machine next) (h' : Proceeds table more next last) :
      Proceeds table (events ++ more) machine last
  | asks (machine : Machine) : Proceeds table [.seen machine.control.phase] machine machine
  | requests (machine : Machine) : Proceeds table [.request] machine machine.cancelled
  /-- Another bus is attached, and other hooks are installed. -/
  | equips (machine : Machine) (bus : Bus) (hooks : HookTable) :
    Proceeds table [] machine { machine with core := ⟨machine.registers, bus⟩, hooks }
  /-- An earlier halt is forgotten. -/
  | resumes (machine : Machine) :
    Proceeds table [] machine { machine with core := ⟨machine.registers.resume, machine.bus⟩ }
  | releases (machine : Machine) : Proceeds table [] machine machine.released
  | calls {machine : Machine} (idle : machine.control.running = false) (start : Option UInt32) :
    Proceeds table (.once :: (machine.onceFrom start).stepEvents table) machine
      (Action.stateAfter (step table (machine.onceFrom start))).released
  | begins {machine : Machine} (idle : machine.control.running = false) (start : Option UInt32) :
    Proceeds table [.run] machine (machine.runFrom start)
  | continues {machine : Machine} (running : machine.control.running = true)
      (unasked : machine.control.cancelled = false)
      (succeeds : ∃ record next, step table machine = .ok record next) :
      Proceeds table (machine.stepEvents table) machine (Action.stateAfter (step table machine))
  | fails {machine : Machine} (running : machine.control.running = true)
      (unasked : machine.control.cancelled = false)
      (failed : ∃ failure last, step table machine = .error failure last) :
      Proceeds table (machine.stepEvents table) machine
        (Action.stateAfter (step table machine)).released

/-- The machine that an action hands on, with the active call ended if the action has failed. -/
def handedOn {α : Type} : EStateM.Result Failure Machine α → Machine
  | .ok _ next => next
  | .error _ last => last.released

/-- A turn proceeds by the events that it is said to bring. -/
theorem proceeds_turn (table : DispatchTable) {machine : Machine}
    (running : machine.control.running = true) :
    Proceeds table (machine.turnEvents table) machine (handedOn (turn table machine)) := by
  unfold turnEvents turn takeTurn
  rw [id]
  cases unasked : machine.control.cancelled with
  | true => exact .asks machine
  | false =>
    simp only [Bool.false_eq_true, if_false]
    cases outcome : step table machine with
    | ok record next =>
      have goes := Proceeds.continues running unasked ⟨record, next, outcome⟩
      rw [outcome] at goes
      exact goes
    | error failure last =>
      have goes := Proceeds.fails running unasked ⟨failure, last, outcome⟩
      rw [outcome] at goes
      exact goes

/-- A request for cancellation proceeds by itself, and without one nothing happens. -/
theorem proceeds_polled (table : DispatchTable) (asked : Bool) (machine : Machine) :
    Proceeds table (if asked then [.request] else []) machine
      (if asked then machine.cancelled else machine) := by
  cases asked with
  | true => exact .requests machine
  | false => exact .rests machine

/-- A run is a way of the machine. By induction on the number of turns. -/
theorem proceeds_turns (table : DispatchTable) (requests : Nat → Bool) (first limit : Nat)
    {machine : Machine} (running : machine.control.running = true) :
    Proceeds table (turnsEvents table requests first limit machine) machine
      (handedOn (turns table requests first limit machine)) := by
  induction limit generalizing first machine with
  | zero => exact .rests machine
  | succ limit ih =>
    have still :
        (if requests first then machine.cancelled else machine).control.running = true := by
      split <;> exact running
    -- A request from outside comes first, and the turn is the one of the machine that has seen it.
    have polls := proceeds_polled table (requests first) machine
    rw [turnsEvents, turns_succ]
    change Proceeds table _ machine (handedOn (match turn table
      (if requests first then machine.cancelled else machine) with
      | .ok none next => turns table requests (first + 1) limit next
      | .ok (some reason) next => .ok (some reason) next
      | .error failure next => .error failure next))
    generalize (if requests first then machine.cancelled else machine) = polled at still polls
    have turned := polls.trans (proceeds_turn table still)
    have stays := keepsActive_turn table polled
    cases outcome : turn table polled with
    | error failure last =>
      rw [outcome] at turned
      exact turned.trans (.rests _)
    | ok reason next =>
      rw [outcome] at turned stays
      cases reason with
      | none => exact turned.trans (ih (first + 1) (stays.running.trans still))
      | some reason => exact turned.trans (.rests _)

end Machine

end W65C816
