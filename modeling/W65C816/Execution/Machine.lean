import W65C816.Catalog.Table
import W65C816.Execution.Control
import W65C816.Execution.Hook
import W65C816.Execution.Operation
import W65C816.Trace.Journal

/-!
# The machine

The machine is the core with what watches it: the hooks, the run control that they may look at and
cancel, the log of their calls, and the trace. `Machine.step` is one instruction: it is read at the
program counter, noted in the trace, the program counter moves past it, it is executed, and it is
counted. A step that cannot read an instruction changes nothing. A step whose instruction fails has
moved the program counter and is not counted.

A hook may call the interpreter that the machine is a part of. The machine by itself knows how such
a call is answered, since the answer is up to the run control; the interpreter lets the hook make
the call, and `Interpreter.step_visit` says that this comes to the same.
-/

set_option autoImplicit false

namespace W65C816

/-- How a call comes to an early end. -/
inductive Failure where
  | fault (fault : Fault)
  | panic
deriving DecidableEq, Repr

/-- How the interpreter has answered a hook that called it for one instruction and then for a run:
the failures that the two calls ended with, if they did. -/
structure Reentry where
  once : Option Failure
  run : Option Failure
deriving DecidableEq, Repr

/-- The answers to a hook whose calls are refused. -/
def Reentry.refused : Reentry where
  once := some (.fault (.invalidOperation .alreadyRunning))
  run := some (.fault (.invalidOperation .alreadyRunning))

/-- What is logged of a call of a hook. -/
structure HookCall where
  tag : Option String
  /-- The number of the call of this hook, counted from one. -/
  number : Nat
  sighting : Sighting
  /-- What the interpreter is doing, as the hook is told. -/
  phase : Phase
  /-- What the hook does. -/
  reaction : Reaction
  /-- The answers to the calls of the interpreter by the hook, if it makes them. -/
  reentry : Option Reentry
  /-- What the hook is told after it has requested a cancellation, if it does. -/
  phaseAfter : Option Phase
deriving DecidableEq, Repr

/-- The core with what watches it. -/
structure Machine where
  core : Core
  hooks : HookTable := {}
  control : Control := {}
  log : Array HookCall := #[]
  trace : Trace.Journal := .blank false 0

/-- What a call does to the machine. -/
abbrev MachineAction (α : Type) := EStateM Failure Machine α

namespace Machine

def registers (machine : Machine) : Registers :=
  machine.core.registers

def bus (machine : Machine) : Bus :=
  machine.core.bus

/-- An action on the core. -/
def onCore {α : Type} (action : Exec α) : MachineAction α
  | ⟨core, hooks, control, log, trace⟩ =>
    match action core with
    | .ok value core => .ok value ⟨core, hooks, control, log, trace⟩
    | .error fault core => .error (.fault fault) ⟨core, hooks, control, log, trace⟩

def alter (change : Registers → Registers) : MachineAction Unit :=
  onCore (Exec.alter change)

def onControl (change : Control → Control) : MachineAction Unit
  | ⟨core, hooks, control, log, trace⟩ => .ok () ⟨core, hooks, change control, log, trace⟩

/-- What a hook does that is called and has called the interpreter, if it wanted to: its call is
counted and logged, it may request a cancellation, and it may panic in the end. -/
def respond (index : Nat) (hook : Hook) (sighting : Sighting) (phase : Phase)
    (reentry : Option Reentry) : MachineAction Bool
  | ⟨core, hooks, control, log, trace⟩ =>
    let number := hook.calls + 1
    let reaction := hook.react number sighting
    let after := if reaction.cancel then control.cancel else control
    let call : HookCall :=
      { tag := hook.tag
        number
        sighting
        phase
        reaction
        reentry
        phaseAfter := if reaction.cancel then some after.phase else none }
    let machine : Machine :=
      { core
        hooks := hooks.put index (some { hook with calls := number })
        control := after
        log := if hook.logged then log.push call else log
        trace }
    if reaction.panic then .error .panic machine else .ok true machine

/-- Calls the hook in a slot, and tells whether there is one. A hook that calls the interpreter
while a call is active is refused; while none is active it does not call. -/
def invoke (index : Nat) (sighting : Sighting) : MachineAction Bool
  | ⟨core, hooks, control, log, trace⟩ =>
    match hooks.get? index with
    | none => .ok false ⟨core, hooks, control, log, trace⟩
    | some hook =>
      let reenters := (hook.react (hook.calls + 1) sighting).reenter && control.phase != .idle
      respond index hook sighting control.phase (if reenters then some .refused else none)
        ⟨core, hooks, control, log, trace⟩

/-- Calls the hook that the operand of `WDM` names. Zero names none. -/
def callHook (instruction : Instruction) (slot : UInt8) : MachineAction Unit := fun machine =>
  if slot = 0 then .ok () machine
  else
    match invoke (slot.toNat - 1) { slot, instruction, registers := machine.registers } machine with
    | .ok _ machine => .ok () machine
    | .error failure machine => .error failure machine

/-- A `WDM` that names a hook calls the hook in the slot before the number that it has. -/
theorem callHook_eq (instruction : Instruction) (slot : UInt8) (machine : Machine) :
    callHook instruction slot machine =
      if slot = 0 then .ok () machine
      else (invoke (slot.toNat - 1) { slot, instruction, registers := machine.registers } >>=
        fun _ => pure ()) machine := by
  unfold callHook
  split
  · rfl
  · rw [Action.bind_apply]
    generalize invoke (slot.toNat - 1) _ machine = outcome
    cases outcome <;> rfl

/-- Executes an instruction. -/
def execute (instruction : Instruction) (operands : Operands) : MachineAction Unit :=
  if instruction.opcode = .wdm then callHook instruction (Address.low operands.first)
  else onCore (instruction.execute operands)

/-- Reads the instruction at the program counter. -/
def fetch (table : DispatchTable) : MachineAction Record :=
  onCore (Exec.ask fun r bus => table.decodeAt bus r.fullPc r.widths)

/-- Notes an instruction in the trace. -/
def note (record : Record) : MachineAction Unit
  | ⟨core, hooks, control, log, trace⟩ =>
    .ok () ⟨core, hooks, control, log, trace.note record core.registers⟩

/-- Carries out one instruction. The count wraps around at its greatest value. -/
def step (table : DispatchTable) : MachineAction Record := do
  let record ← fetch table
  note record
  alter fun r => r.advance record.length
  execute record.instruction record.operands
  alter fun r => { r with instructions := r.instructions + 1 }
  pure record

end Machine

end W65C816
