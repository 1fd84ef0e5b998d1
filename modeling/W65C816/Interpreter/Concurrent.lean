import W65C816.Interpreter.Reentry

/-!
# Concurrent runs

A concurrent run is handed to a worker and the call returns at once, unless the system has no worker
to give, and says why. The worker takes its turns between the calls that others make:
`Interpreter.advance` is one of them. What it ends with stays with the interpreter until it is
collected, by a call that waits for the worker or by the next run; a panic of a hook is collected as
an error.
-/

set_option autoImplicit false

namespace W65C816.Interpreter

/-- Hands a run to a worker. If there is an obstacle to starting one, the run ends before it has
taken a turn. -/
def spawn (start : Option UInt32) (obstacle : Option String := none) : Call Unit :=
  fun interpreter =>
    match beginRun start interpreter with
    | .error failure interpreter => .error failure interpreter
    | .ok _ interpreter =>
      match obstacle with
      | none => .ok () { interpreter with worker := some .starting }
      | some why => .error (.fault (.invalidOperation (.noWorker why))) interpreter.release

/-- Ends the worker's run. -/
def conclude (outcome : Except Fault Unit) (interpreter : Interpreter) : Interpreter :=
  { interpreter.release with worker := some (.finished outcome) }

/-- One turn of the worker. -/
def turn (interpreter : Interpreter) : Interpreter :=
  match turnOf (visit 1) interpreter with
  | .ok none interpreter => interpreter
  | .ok (some reason) interpreter => (interpreter.finish reason).conclude (.ok ())
  | .error (.fault fault) interpreter =>
    let interpreter := (interpreter.finish .error).keepError fault
    match interpreter.config.policy with
    | .record => interpreter.conclude (.ok ())
    | .propagate => interpreter.conclude (.error fault)
  | .error .panic interpreter =>
    interpreter.conclude (.error (.invalidOperation .workerPanicked))

/-- The worker's turn is a turn of the machine by itself, and what comes of it. -/
theorem turn_eq (interpreter : Interpreter) :
    turn interpreter =
      match onMachine Machine.turn interpreter with
      | .ok none interpreter => interpreter
      | .ok (some reason) interpreter => (interpreter.finish reason).conclude (.ok ())
      | .error (.fault fault) interpreter =>
        let interpreter := (interpreter.finish .error).keepError fault
        match interpreter.config.policy with
        | .record => interpreter.conclude (.ok ())
        | .propagate => interpreter.conclude (.error fault)
      | .error .panic interpreter =>
        interpreter.conclude (.error (.invalidOperation .workerPanicked)) := by
  rw [turn, turnOf_visit]

/-- What the worker does next, if it has anything left to do. -/
def advance (interpreter : Interpreter) : Interpreter :=
  match interpreter with
  | ⟨machine, table, config, lastError, stopReason, some .starting⟩ =>
    alterRegisters Registers.resume
      ⟨machine, table, config, lastError, stopReason, some .looping⟩
  | ⟨machine, table, config, lastError, stopReason, some .looping⟩ =>
    turn ⟨machine, table, config, lastError, stopReason, some .looping⟩
  | interpreter => interpreter

/-- Whether there is a worker that has not ended. -/
def isBusy (interpreter : Interpreter) : Bool :=
  match interpreter.worker with
  | some .starting | some .looping => true
  | some (.finished _) | none => false

/-- Lets the worker take up to `limit` turns. -/
def settle : Nat → Interpreter → Interpreter
  | 0, interpreter => interpreter
  | limit + 1, interpreter =>
    if interpreter.isBusy then settle limit interpreter.advance else interpreter

/-- Waits until the worker has ended, for at most `limit` of its turns, and collects what it left
behind. The answer is `false` if the worker has not ended by then. -/
def wait (limit : Nat) : Call Bool := fun interpreter =>
  let interpreter := settle limit interpreter
  if interpreter.isBusy then .ok false interpreter
  else
    match collect interpreter with
    | .ok _ interpreter => .ok true interpreter
    | .error failure interpreter => .error failure interpreter

/-- Requests a cancellation and waits for the worker. -/
def stop (limit : Nat) : Call Bool := fun interpreter =>
  wait limit interpreter.cancel

end W65C816.Interpreter
