import W65C816.Execution.Run

/-!
# The interpreter

An interpreter is a machine with a dispatch table, and it remembers how its last run ended and what
error came last. Its calls are refused while another call is active. A call that executes a failing
instruction keeps the error; the error policy says whether the call also returns it.

`Interpreter.carryOut` is a call for one instruction and `Interpreter.carryOn` a run, which goes on
until the processor halts, an instruction fails, or a cancellation is requested. How an instruction
is carried out is left open here, as it may call a hook that calls the interpreter again.
-/

set_option autoImplicit false

namespace W65C816

/-- What happens to the error of an instruction. -/
inductive ErrorPolicy where
  /-- It is kept and the call ends normally. -/
  | record
  /-- It is kept and returned. -/
  | propagate
deriving DecidableEq, Repr

def ErrorPolicy.name : ErrorPolicy → String
  | .record => "Record"
  | .propagate => "Propagate"

/-- How an interpreter is set up. -/
structure Config where
  policy : ErrorPolicy := .record
  /-- Whether each instruction is reported before it is carried out. -/
  verbose : Bool := false
  /-- How many instructions the trace keeps. -/
  history : Nat := 0
deriving DecidableEq, Repr

/-- The run that was handed to a worker. -/
inductive Worker where
  /-- It has not begun to run. -/
  | starting
  /-- It is between two turns. -/
  | looping
  /-- It has ended, and this is what is to be collected. -/
  | finished (outcome : Except Fault Unit)

/-- A machine with a dispatch table and the results of its runs. -/
structure Interpreter where
  machine : Machine
  table : DispatchTable
  config : Config
  lastError : Option Fault
  stopReason : Option StopReason
  worker : Option Worker

/-- A call of an interpreter. -/
abbrev Call (α : Type) := EStateM Failure Interpreter α

namespace Interpreter

/-- An interpreter for a core. -/
def create (core : Core) (table : DispatchTable) (config : Config) : Interpreter where
  machine := { core, trace := .blank config.verbose config.history }
  table
  config
  lastError := none
  stopReason := none
  worker := none

def registers (interpreter : Interpreter) : Registers :=
  interpreter.machine.registers

/-- What the interpreter is doing. -/
def phase (interpreter : Interpreter) : Phase :=
  interpreter.machine.control.phase

def alterMachine (change : Machine → Machine) : Interpreter → Interpreter
  | ⟨machine, table, config, lastError, stopReason, worker⟩ =>
    ⟨change machine, table, config, lastError, stopReason, worker⟩

def alterRegisters (change : Registers → Registers) : Interpreter → Interpreter :=
  alterMachine fun
    | ⟨⟨registers, bus⟩, hooks, control, log, trace⟩ =>
      ⟨⟨change registers, bus⟩, hooks, control, log, trace⟩

def alterControl (change : Control → Control) : Interpreter → Interpreter :=
  alterMachine fun
    | ⟨core, hooks, control, log, trace⟩ => ⟨core, hooks, change control, log, trace⟩

def cancel : Interpreter → Interpreter :=
  alterControl Control.cancel

/-- An action on the machine. -/
def onMachine {α : Type} (action : DispatchTable → MachineAction α) : Call α
  | ⟨machine, table, config, lastError, stopReason, worker⟩ =>
    Action.place (fun machine => ⟨machine, table, config, lastError, stopReason, worker⟩)
      (action table machine)

/-- Begins a call, which is refused while another one is active. -/
def begin : Call Unit := fun interpreter =>
  match interpreter.machine.control.begin with
  | .ok control => .ok () (interpreter.alterControl fun _ => control)
  | .error fault => .error (.fault fault) interpreter

def release : Interpreter → Interpreter :=
  alterControl Control.release

/-- What a call returns whose instruction failed, by the error policy. -/
def report {α : Type} (fault : Fault) (value : α) : Call α := fun interpreter =>
  match interpreter.config.policy with
  | .record => .ok value interpreter
  | .propagate => .error (.fault fault) interpreter

/-- Reporting a fault leaves the interpreter as it is. -/
@[simp] theorem stateAfter_report {α : Type} (fault : Fault) (value : α)
    (interpreter : Interpreter) :
    Action.stateAfter (report fault value interpreter) = interpreter := by
  unfold report
  cases interpreter.config.policy <;> rfl

def keepError (fault : Fault) (interpreter : Interpreter) : Interpreter :=
  { interpreter with lastError := some fault }

/-- Takes the error away that came last. -/
def takeError (interpreter : Interpreter) : Option Fault × Interpreter :=
  (interpreter.lastError, { interpreter with lastError := none })

/-- Carries out one instruction by `step`, at a start address or where the program counter is. There
is no record when the instruction failed and the policy keeps the error back. -/
def carryOut (step : Call Record) (start : Option UInt32) : Call (Option Record) :=
  fun interpreter =>
    match begin interpreter with
    | .error failure interpreter => .error failure interpreter
    | .ok _ interpreter =>
      match step (interpreter.alterRegisters fun r => r.startAt start) with
      | .ok record interpreter => .ok (some record) interpreter.release
      | .error (.fault fault) interpreter =>
        report fault none (interpreter.release.keepError fault)
      | .error .panic interpreter => .error .panic interpreter.release

/-- Collects what a worker left behind that has ended. -/
def collect : Call Unit := fun interpreter =>
  match interpreter with
  | ⟨machine, table, config, lastError, stopReason, some (.finished outcome)⟩ =>
    let interpreter := ⟨machine, table, config, lastError, stopReason, none⟩
    match outcome with
    | .ok _ => .ok () interpreter
    | .error fault => .error (.fault fault) interpreter
  | interpreter => .ok () interpreter

/-- Begins a run: collects what an earlier worker left behind, and if that was a failure returns it
and begins no run; forgets old requests for cancellation and the old stop reason, and goes to the
start address. -/
def beginRun (start : Option UInt32) : Call Unit := fun interpreter =>
  match begin interpreter with
  | .error failure interpreter => .error failure interpreter
  | .ok _ interpreter =>
    match collect interpreter with
    | .error failure interpreter => .error failure interpreter.release
    | .ok _ interpreter =>
      let interpreter := (interpreter.alterControl Control.reset).alterRegisters fun r =>
        r.startAt start
      .ok () { interpreter with stopReason := none }

/-- Ends a run for the given reason. -/
def finish (reason : StopReason) (interpreter : Interpreter) : Interpreter :=
  { interpreter with stopReason := some reason }

/-- Takes turns by `turns` from a start address on or where the program counter is. The answer is
`false` if the turns have not ended the run; then it is still active. -/
def carryOn (turns : Call (Option StopReason)) (start : Option UInt32) : Call Bool :=
  fun interpreter =>
    match beginRun start interpreter with
    | .error failure interpreter => .error failure interpreter
    | .ok _ interpreter =>
      match turns (interpreter.alterRegisters Registers.resume) with
      | .ok none interpreter => .ok false interpreter
      | .ok (some reason) interpreter => .ok true (interpreter.finish reason).release
      | .error (.fault fault) interpreter =>
        report fault true ((interpreter.finish .error).keepError fault).release
      | .error .panic interpreter => .error .panic interpreter.release

end Interpreter

end W65C816
