import W65C816.Interpreter.Basic

/-!
# Hooks that call the interpreter

A hook is called in the middle of an instruction, and may then call the interpreter that is carrying
it out: for one instruction, and for a run. `Interpreter.step` is an instruction whose hooks do so
by a `Visit`. A visit consists of the very calls that others make, so hooks that are called during a
visit could visit the interpreter in their turn; `Interpreter.visit` says how deep this may go.

It never goes far. Whoever calls a hook during an instruction has an active call, so the calls of a
visit are refused and change nothing, `Interpreter.visit_of_active`. Therefore an instruction is one
of the machine by itself, which knows the refusals, `Interpreter.step_visit`, and it makes no
difference how deep visits may go.
-/

set_option autoImplicit false

namespace W65C816.Interpreter

/-- What a hook does that calls the interpreter, with the answers that it gets. -/
abbrev Visit := Interpreter → Reentry × Interpreter

/-- The failure that a call ends with, if it does, and the interpreter behind the call. -/
def ending {α : Type} (call : Call α) (interpreter : Interpreter) : Option Failure × Interpreter :=
  match call interpreter with
  | .ok _ interpreter => (none, interpreter)
  | .error failure interpreter => (some failure, interpreter)

/-! ## Instructions whose hooks visit the interpreter -/

/-- Calls the hook in a slot, and tells whether there is one. A hook that wants to visits the
interpreter, unless it is told that the interpreter is idle. -/
def invoke (visit : Visit) (index : Nat) (sighting : Sighting) : Call Bool := fun interpreter =>
  match interpreter.machine.hooks.get? index with
  | none => .ok false interpreter
  | some hook =>
    let phase := interpreter.phase
    if (hook.react (hook.calls + 1) sighting).reenter && phase != .idle then
      match visit interpreter with
      | (reentry, interpreter) =>
        onMachine (fun _ => Machine.respond index hook sighting phase (some reentry)) interpreter
    else
      onMachine (fun _ => Machine.respond index hook sighting phase none) interpreter

/-- Calls the hook that the operand of `WDM` names. Zero names none. -/
def callHook (visit : Visit) (instruction : Instruction) (slot : UInt8) : Call Unit :=
  fun interpreter =>
    if slot = 0 then .ok () interpreter
    else
      match invoke visit (slot.toNat - 1)
        { slot, instruction, registers := interpreter.registers } interpreter with
      | .ok _ interpreter => .ok () interpreter
      | .error failure interpreter => .error failure interpreter

/-- Executes an instruction. -/
def execute (visit : Visit) (instruction : Instruction) (operands : Operands) : Call Unit :=
  if instruction.opcode = .wdm then callHook visit instruction (Address.low operands.first)
  else onMachine fun _ => Machine.onCore (instruction.execute operands)

/-- Carries out one instruction. -/
def step (visit : Visit) : Call Record := do
  let record ← onMachine Machine.fetch
  onMachine fun _ => Machine.note record
  onMachine fun _ => Machine.alter fun r => r.advance record.length
  execute visit record.instruction record.operands
  onMachine fun _ => Machine.alter fun r => { r with instructions := r.instructions + 1 }
  pure record

/-- One turn of a run, and the reason if it ends the run. -/
def turnOf (visit : Visit) : Call (Option StopReason) :=
  takeTurn machine (step visit)

/-- Repeats turns until the run ends, at most `limit` of them, with requests for cancellation from
outside before some of them. -/
def turnsOf (visit : Visit) (requests : Nat → Bool) (limit : Nat) : Call (Option StopReason) :=
  takeTurns cancel (turnOf visit) requests 0 limit

/-! ## The calls -/

/-- A visit: a call for one instruction and one for a run. The hooks that are called meanwhile may
visit the interpreter in their turn, one level less deep. -/
def visit : Nat → Visit
  | 0 => fun interpreter => ({ once := none, run := none }, interpreter)
  | depth + 1 => fun interpreter =>
    match ending (carryOut (step (visit depth)) none) interpreter with
    | (once, interpreter) =>
      match ending (carryOn (turnsOf (visit depth) (fun _ => false) depth) none) interpreter with
      | (run, interpreter) => ({ once, run }, interpreter)

/-- Carries out one instruction, at a start address or where the program counter is. There is no
record when the instruction failed and the policy keeps the error back. -/
def runOnce (start : Option UInt32) : Call (Option Record) :=
  carryOut (step (visit 1)) start

/-- Runs until the end, at most `limit` turns; then the answer is `false`, and the run is still
active. -/
def run (start : Option UInt32) (requests : Nat → Bool) (limit : Nat) : Call Bool :=
  carryOn (turnsOf (visit 1) requests limit) start

/-! ## Visits are refused -/

/-- While a call is active, another one is refused and nothing changes. -/
theorem begin_of_running {interpreter : Interpreter}
    (running : interpreter.machine.control.running = true) :
    begin interpreter = .error (.fault (.invalidOperation .alreadyRunning)) interpreter := by
  simp only [begin, Control.begin, running, if_true]

/-- The calls of a visit are refused while a call is active, and nothing is changed by them. -/
theorem visit_of_active {interpreter : Interpreter} (active : interpreter.phase ≠ .idle)
    (depth : Nat) : visit (depth + 1) interpreter = (.refused, interpreter) := by
  have refused := begin_of_running ((Control.phase_ne_idle_iff _).mp active)
  simp only [visit, ending, carryOut, carryOn, beginRun, refused, Reentry.refused]

/-! ## Instructions of the machine by itself -/

/-- Actions of the machine in a row are calls in a row. -/
theorem onMachine_bind {α β : Type} (first : DispatchTable → MachineAction α)
    (rest : DispatchTable → α → MachineAction β) :
    onMachine (fun table => first table >>= rest table) =
      (onMachine first >>= fun value => onMachine fun table => rest table value) := by
  funext interpreter
  obtain ⟨machine, table, config, error, reason, worker⟩ := interpreter
  simp only [onMachine, Action.bind_apply]
  generalize first table machine = outcome
  cases outcome <;> rfl

/-- A hook whose visits are refused is called as the machine by itself calls it. -/
theorem invoke_of_refused {visit : Visit}
    (refused : ∀ interpreter : Interpreter, interpreter.phase ≠ .idle →
      visit interpreter = (.refused, interpreter)) (index : Nat) (sighting : Sighting) :
    invoke visit index sighting = onMachine fun _ => Machine.invoke index sighting := by
  funext interpreter
  have answer := refused interpreter
  obtain ⟨⟨core, hooks, control, log, trace⟩, table, config, error, reason, worker⟩ := interpreter
  simp only [invoke, Machine.invoke, onMachine]
  cases hooks.get? index with
  | none => rfl
  | some hook =>
    have same : (⟨⟨core, hooks, control, log, trace⟩, table, config, error, reason, worker⟩ :
        Interpreter).phase = control.phase := rfl
    dsimp only
    rw [same] at answer ⊢
    split
    · next visits => rw [answer (by simpa using (Bool.and_eq_true_iff.mp visits).2)]
    · rfl

/-- An instruction whose hooks visit the interpreter is an instruction of the machine by itself. -/
theorem step_visit (depth : Nat) : step (visit (depth + 1)) = onMachine Machine.step := by
  have executes (instruction : Instruction) (operands : Operands) :
      execute (visit (depth + 1)) instruction operands =
        onMachine fun _ => Machine.execute instruction operands := by
    unfold execute Machine.execute
    split
    · funext interpreter
      unfold callHook
      rw [invoke_of_refused fun _ active => visit_of_active active depth]
      obtain ⟨machine, table, config, error, reason, worker⟩ := interpreter
      simp only [onMachine, Machine.callHook, registers]
      split
      · rfl
      · generalize Machine.invoke _ _ machine = outcome
        cases outcome <;> rfl
    · rfl
  have sequence : onMachine Machine.step = (do
      let record ← onMachine Machine.fetch
      onMachine fun _ => Machine.note record
      onMachine fun _ => Machine.alter fun r => r.advance record.length
      onMachine fun _ => Machine.execute record.instruction record.operands
      onMachine fun _ => Machine.alter fun r => { r with instructions := r.instructions + 1 }
      pure record) := by
    unfold Machine.step
    rw [onMachine_bind]
    congr 1
    funext record
    rw [onMachine_bind, onMachine_bind, onMachine_bind, onMachine_bind]
    rfl
  rw [sequence, step]
  simp only [executes]

/-- A turn of the interpreter is a turn of its machine. -/
theorem turnOf_visit (depth : Nat) : turnOf (visit (depth + 1)) = onMachine Machine.turn := by
  funext interpreter
  obtain ⟨machine, table, config, error, reason, worker⟩ := interpreter
  simp only [turnOf, takeTurn, step_visit, onMachine, Machine.turn, id]
  split
  · rfl
  · generalize Machine.step table machine = outcome
    cases outcome <;> rfl

/-- A run of the interpreter is a run of its machine. By induction on the number of turns. -/
theorem turnsOf_visit (depth : Nat) (requests : Nat → Bool) (limit : Nat) :
    turnsOf (visit (depth + 1)) requests limit =
      onMachine fun table => Machine.turns table requests 0 limit := by
  unfold turnsOf
  rw [turnOf_visit]
  generalize 0 = first
  induction limit generalizing first with
  | zero => rfl
  | succ limit ih =>
    funext interpreter
    rw [takeTurns]
    obtain ⟨machine, table, config, error, reason, worker⟩ := interpreter
    have polled : (if requests first then
          cancel ⟨machine, table, config, error, reason, worker⟩
        else ⟨machine, table, config, error, reason, worker⟩) =
        ⟨if requests first then { machine with control := machine.control.cancel } else machine,
          table, config, error, reason, worker⟩ := by
      cases requests first <;> rfl
    simp only [polled, ih, onMachine, Machine.turns_succ]
    generalize Machine.turn table _ = outcome
    rcases outcome with ⟨_ | ended, next⟩ | ⟨failure, next⟩ <;> rfl

/-! ## The calls by themselves -/

/-- However deep visits may go, a call for one instruction is the same. -/
theorem carryOut_visit (depth : Nat) : carryOut (step (visit (depth + 1))) = runOnce := by
  funext start
  rw [runOnce, step_visit, step_visit]

/-- However deep visits may go, a run is the same. -/
theorem carryOn_visit (depth : Nat) (start : Option UInt32) (requests : Nat → Bool)
    (limit : Nat) :
    carryOn (turnsOf (visit (depth + 1)) requests limit) start = run start requests limit := by
  rw [run, turnsOf_visit, turnsOf_visit]

/-- A call for one instruction carries it out on the machine by itself. -/
theorem runOnce_eq_carryOut (start : Option UInt32) :
    runOnce start = carryOut (onMachine Machine.step) start := by
  rw [runOnce, step_visit]

/-- A run takes the turns of the machine by itself. -/
theorem run_eq_carryOn (start : Option UInt32) (requests : Nat → Bool) (limit : Nat) :
    run start requests limit =
      carryOn (onMachine fun table => Machine.turns table requests 0 limit) start := by
  rw [run, turnsOf_visit]

end W65C816.Interpreter
