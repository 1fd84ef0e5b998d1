import W65C816.Execution.Machine

/-!
# Runs of the machine

A run repeats turns. A turn looks for a request for cancellation and carries out one instruction if
there is none; it ends the run when there is one, when the instruction halts the processor, and when
it fails. Requests may come from outside at any time; as they take effect only when they are looked
at, it is enough to say before which turns they come.

A program need not halt, so a run is given a number of turns after which it is left unfinished.
`takeTurn` and `takeTurns` say what a turn and a run are of anything that has a machine in it.
-/

set_option autoImplicit false

namespace W65C816

inductive StopReason where
  | cancelled
  /-- `STP` was executed. -/
  | stopped
  /-- `WAI` was executed. Interrupts never come. -/
  | waitingForInterrupt
  | error
deriving DecidableEq, Repr

def StopReason.name : StopReason → String
  | .cancelled => "Cancelled"
  | .stopped => "Stopped"
  | .waitingForInterrupt => "WaitingForInterrupt"
  | .error => "Error"

/-- The halt that the registers show, if they show one. -/
def Registers.halt? (r : Registers) : Option StopReason :=
  if r.stopped then some .stopped else if r.waiting then some .waitingForInterrupt else none

/-- The registers at the beginning of a run, which forgets an earlier halt. -/
def Registers.resume (r : Registers) : Registers :=
  { r with stopped := false, waiting := false }

/-- The registers at a start address, if there is one. -/
def Registers.startAt (r : Registers) (start : Option UInt32) : Registers :=
  match start with
  | some address => r.jumpTo address
  | none => r

/-! ## Turns of any state with a machine in it -/

section

variable {σ : Type}

/-- One turn of a run that carries out its instructions by `step`, and the reason if the turn ends
the run. -/
def takeTurn (machine : σ → Machine) (step : EStateM Failure σ Record) :
    EStateM Failure σ (Option StopReason) := fun state =>
  if (machine state).control.cancelled then .ok (some .cancelled) state
  else
    match step state with
    | .ok _ state => .ok (machine state).registers.halt? state
    | .error failure state => .error failure state

/-- Repeats turns until the run ends, at most `limit` of them. The turns are numbered from `first`
on, and `requests` says before which of them a cancellation is requested from outside. -/
def takeTurns (cancel : σ → σ) (turn : EStateM Failure σ (Option StopReason))
    (requests : Nat → Bool) (first : Nat) : Nat → EStateM Failure σ (Option StopReason)
  | 0 => pure none
  | limit + 1 => fun state =>
    match turn (if requests first then cancel state else state) with
    | .ok none state => takeTurns cancel turn requests (first + 1) limit state
    | .ok (some reason) state => .ok (some reason) state
    | .error failure state => .error failure state

end

namespace Machine

/-- One turn of a run, and the reason if it ends the run. -/
def turn (table : DispatchTable) : MachineAction (Option StopReason) :=
  takeTurn id (step table)

/-- Asks for the halt that the registers show. -/
def askHalt : MachineAction (Option StopReason) := fun machine =>
  .ok machine.registers.halt? machine

/-- A turn that finds no cancellation is a step, behind which the registers are looked at. -/
theorem turn_eq (table : DispatchTable) (machine : Machine) :
    turn table machine =
      if machine.control.cancelled then .ok (some .cancelled) machine
      else (step table >>= fun _ => askHalt) machine := by
  unfold turn takeTurn
  rw [id]
  split
  · rfl
  · rw [Action.bind_apply]
    generalize step table machine = outcome
    cases outcome <;> rfl

/-- Repeats turns of the machine until the run ends, at most `limit` of them. -/
def turns (table : DispatchTable) (requests : Nat → Bool) (first limit : Nat) :
    MachineAction (Option StopReason) :=
  takeTurns (fun machine => { machine with control := machine.control.cancel }) (turn table)
    requests first limit

/-- A run takes a turn, and goes on behind it unless the turn has ended it. -/
theorem turns_succ (table : DispatchTable) (requests : Nat → Bool) (first limit : Nat)
    (machine : Machine) :
    turns table requests first (limit + 1) machine =
      match turn table (if requests first then
          { machine with control := machine.control.cancel } else machine) with
      | .ok none next => turns table requests (first + 1) limit next
      | .ok (some reason) next => .ok (some reason) next
      | .error failure next => .error failure next := by
  unfold turns
  rw [takeTurns]
  dsimp only
  generalize turn table _ = outcome
  rcases outcome with ⟨_ | reason, next⟩ | ⟨failure, next⟩ <;> rfl

/-- A run as a sequence: a request for cancellation is passed on, a turn is taken, and the rest of
the run follows if the turn has not ended it. -/
theorem turns_succ_eq_bind (table : DispatchTable) (requests : Nat → Bool) (first limit : Nat) :
    turns table requests first (limit + 1) =
      onControl (if requests first then Control.cancel else id) >>= fun _ =>
        turn table >>= fun reason =>
          match reason with
          | none => turns table requests (first + 1) limit
          | some reason => pure (some reason) := by
  funext machine
  have polled : onControl (if requests first then Control.cancel else id) machine =
      .ok () (if requests first then
        { machine with control := machine.control.cancel } else machine) := by
    split <;> rfl
  rw [turns_succ, Action.bind_apply, polled]
  dsimp only
  rw [Action.bind_apply]
  generalize turn table _ = outcome
  rcases outcome with ⟨_ | reason, next⟩ | ⟨failure, next⟩ <;> rfl

end Machine

end W65C816
