import W65C816.Proofs.Interpreter.Runs
import W65C816.Proofs.Interpreter.Stages

/-!
# A concurrent run is a run that is delivered later

A run that is handed to a worker goes through the loop that a run of the caller's own goes through,
turn by turn: `Interpreter.settle_looping`. What differs is where the outcome goes. The worker
leaves it with the interpreter, and whoever waits for the worker collects it. When that has happened
the interpreter is the one that a run of its own would have left behind, down to the run control, so
nothing that comes later can tell the two apart. Only a panic comes out in another way: it passes
through a run of one's own, and is collected from a worker as a fault.
-/

set_option autoImplicit false

namespace W65C816

/-! ## Panics -/

namespace Machine

variable {α β : Type}

/-- The machine is what is left when a hook has panicked at what it saw. -/
def PanickedAt (sighting : Sighting) (machine : Machine) : Prop :=
  machine.registers = sighting.registers ∧
    ∃ index before, invoke index sighting before = .error .panic machine

/-- The action panics only where a hook does. -/
def PanicsByHook (action : MachineAction α) : Prop :=
  ∀ machine last, action machine = .error .panic last → ∃ sighting, last.PanickedAt sighting

/-- An action and what follows panic by hooks only if both do. -/
theorem PanicsByHook.bind {first : MachineAction α} {rest : α → MachineAction β}
    (hfirst : PanicsByHook first) (hrest : ∀ value, PanicsByHook (rest value)) :
    PanicsByHook (first >>= rest) := by
  intro machine last h
  rw [Action.bind_apply] at h
  cases outcome : first machine with
  | ok value next =>
    rw [outcome] at h
    exact hrest value next last h
  | error failure next =>
    rw [outcome] at h
    cases h
    exact hfirst machine last outcome

/-- Actions on the core do not panic. -/
theorem panicsByHook_onCore (action : Exec α) : PanicsByHook (onCore action) := by
  rintro ⟨core, hooks, control, log, trace⟩ last h
  simp only [onCore] at h
  split at h <;> cases h

/-- A hook that is called sees the registers as they are and leaves them so. -/
theorem panicsByHook_callHook (instruction : Instruction) (slot : UInt8) :
    PanicsByHook (callHook instruction slot) := by
  intro machine last h
  rw [callHook_eq, Action.bind_apply] at h
  split at h
  · cases h
  · let sighting : Sighting := { slot, instruction, registers := machine.registers }
    have same := @within_invoke (fun r s => s = r) (fun _ => rfl) (slot.toNat - 1) sighting machine
    cases outcome : invoke (slot.toNat - 1) sighting machine with
    | ok _ next =>
      rw [outcome] at h
      cases h
    | error failure next =>
      rw [outcome] at h same
      cases h
      exact ⟨sighting, same, slot.toNat - 1, machine, outcome⟩

/-- Executing an instruction panics by its hook only. -/
theorem panicsByHook_execute (instruction : Instruction) (operands : Operands) :
    PanicsByHook (execute instruction operands) := by
  unfold execute
  split
  · exact panicsByHook_callHook _ _
  · exact panicsByHook_onCore _

/-- A step panics by a hook only. -/
theorem panicsByHook_step (table : DispatchTable) : PanicsByHook (step table) := by
  refine PanicsByHook.bind (panicsByHook_onCore _) fun record => ?_
  refine PanicsByHook.bind (fun _ _ => nofun) fun _ => ?_
  refine PanicsByHook.bind (panicsByHook_onCore _) fun _ => ?_
  refine PanicsByHook.bind (panicsByHook_execute _ _) fun _ => ?_
  exact PanicsByHook.bind (panicsByHook_onCore _) fun _ => fun _ _ => nofun

/-- A turn of a run panics by a hook only. -/
theorem panicsByHook_turn (table : DispatchTable) : PanicsByHook (turn table) := by
  have ends : PanicsByHook askHalt := fun _ _ => nofun
  intro machine last h
  rw [turn_eq] at h
  split at h
  · cases h
  · exact (panicsByHook_step table).bind (fun _ => ends) machine last h

/-- A run of any number of turns, by induction on how many there are. -/
theorem panicsByHook_turns (table : DispatchTable) (requests : Nat → Bool) (first limit : Nat) :
    PanicsByHook (turns table requests first limit) := by
  induction limit generalizing first with
  | zero => exact fun _ _ => nofun
  | succ limit ih =>
    have polled (change : Control → Control) : PanicsByHook (onControl change) :=
      fun _ _ => nofun
    rw [turns_succ_eq_bind]
    refine (polled _).bind fun _ => (panicsByHook_turn table).bind fun reason => ?_
    cases reason with
    | none => exact ih (first + 1)
    | some reason => exact fun _ _ => nofun

end Machine

namespace Interpreter

/-! ## The worker's loop -/

variable {interpreter : Interpreter}

/-- Time for some turns and then for more is time for all of them. -/
theorem settle_add (some more : Nat) (interpreter : Interpreter) :
    settle (some + more) interpreter = settle more (settle some interpreter) := by
  induction some generalizing interpreter with
  | zero => rw [Nat.zero_add, settle]
  | succ some ih =>
    rw [Nat.succ_add, settle, settle]
    cases busy : interpreter.isBusy with
    | true => exact ih interpreter.advance
    | false => exact (settle_of_quiet busy more).symm

/-- What a worker's run makes of where its loop has come to. -/
def settled (interpreter : Interpreter) :
    EStateM.Result Failure Machine (Option StopReason) → Interpreter
  | .ok none machine => { interpreter with machine, worker := some .looping }
  | .ok (some reason) machine => ({ interpreter with machine }.finish reason).conclude (.ok ())
  | .error (.fault fault) machine =>
    let failed := ({ interpreter with machine }.finish .error).keepError fault
    match interpreter.config.policy with
    | .record => failed.conclude (.ok ())
    | .propagate => failed.conclude (.error fault)
  | .error .panic machine =>
    { interpreter with machine }.conclude (.error (.invalidOperation .workerPanicked))

/-- A turn of the worker is a turn of the machine, settled. -/
theorem turn_eq_settled (looping : interpreter.worker = some .looping) :
    interpreter.turn =
      interpreter.settled (Machine.turn interpreter.table interpreter.machine) := by
  obtain ⟨machine, table, config, error, reason, worker⟩ := interpreter
  cases looping
  simp only [turn_eq, onMachine]
  generalize Machine.turn table machine = outcome
  rcases outcome with ⟨_ | reason, next⟩ | ⟨fault | _, next⟩ <;> rfl

/-- A worker whose loop has ended is quiet. -/
theorem isBusy_settled {outcome : EStateM.Result Failure Machine (Option StopReason)}
    (ended : ∀ machine, outcome ≠ .ok none machine) :
    (interpreter.settled outcome).isBusy = false := by
  rcases outcome with ⟨_ | reason, machine⟩ | ⟨fault | _, machine⟩
  · exact absurd rfl (ended machine)
  · rfl
  · simp only [settled]
    cases interpreter.config.policy <;> rfl
  · rfl

/-- The worker takes the turns of the loop. By induction on how many there are: a turn that ends
nothing leaves a worker that is still at its loop, and any other one that is quiet. -/
theorem settle_looping (interpreter : Interpreter) (machine : Machine) (first limit : Nat) :
    settle limit (interpreter.settled (.ok none machine)) =
      interpreter.settled
        (Machine.turns interpreter.table (fun _ => false) first limit machine) := by
  induction limit generalizing first machine with
  | zero => rfl
  | succ limit ih =>
    have advances : (interpreter.settled (.ok none machine)).advance =
        interpreter.settled (Machine.turn interpreter.table machine) := by
      refine (turn_eq_settled rfl).trans ?_
      change (interpreter.settled (.ok none machine)).settled
        (Machine.turn interpreter.table machine) = _
      generalize Machine.turn interpreter.table machine = outcome
      rcases outcome with ⟨_ | reason, next⟩ | ⟨fault | _, next⟩ <;> rfl
    have busy : (interpreter.settled (.ok none machine)).isBusy = true := rfl
    rw [settle, busy, if_pos rfl, advances, Machine.turns_succ, if_neg Bool.false_ne_true]
    generalize Machine.turn interpreter.table machine = outcome
    rcases outcome with ⟨_ | reason, next⟩ | ⟨failure, next⟩
    · exact ih next (first + 1)
    · have quiet : (interpreter.settled (.ok (some reason) next)).isBusy = false :=
        isBusy_settled fun _ same => by cases same
      exact settle_of_quiet quiet limit
    · have quiet : (interpreter.settled (.error failure next)).isBusy = false :=
        isBusy_settled fun _ same => by cases same
      exact settle_of_quiet quiet limit

/-! ## Runs -/

/-- The interpreter when a run has begun. -/
def cleared (interpreter : Interpreter) : Interpreter :=
  { interpreter with worker := none, stopReason := none }

/-- From rest, a run is the turns of the machine that was launched, handed back. -/
theorem run_eq_handedBack (resting : interpreter.At (.resting none)) (start : Option UInt32)
    (cancels : Nat → Bool) (limit : Nat) :
    run start cancels limit interpreter = interpreter.cleared.handedBack
      (Machine.turns interpreter.table cancels 0 limit (interpreter.launched start)) := by
  rw [run_of_begun (beginRun_of_resting resting start)]
  obtain ⟨⟨⟨r, bus⟩, hooks, control, log, trace⟩, table, config, error, reason, worker⟩ :=
    interpreter
  rfl

/-- What comes of a run is delivered to whoever waits for its worker. A panic is delivered as a
fault. -/
def delivered : EStateM.Result Failure Interpreter Bool → EStateM.Result Failure Interpreter Bool
  | .error .panic last => .error (.fault (.invalidOperation .workerPanicked)) last
  | outcome => outcome

/-- Whoever waits until the loop of a worker has ended gets what a run of one's own would have
returned, and leaves the same interpreter behind. -/
theorem wait_of_settled {outcome : EStateM.Result Failure Machine (Option StopReason)}
    (ended : ∀ machine, outcome ≠ .ok none machine) {waiting : Interpreter} {limit : Nat}
    (h : settle limit waiting = interpreter.cleared.settled outcome) :
    wait limit waiting = delivered (interpreter.cleared.handedBack outcome) := by
  have quiet : (interpreter.cleared.settled outcome).isBusy = false := isBusy_settled ended
  rw [wait_eq, h, quiet, if_neg Bool.false_ne_true]
  obtain ⟨-, table, ⟨policy, verbose, history⟩, error, reason, worker⟩ := interpreter
  rcases outcome with ⟨_ | reason, machine⟩ | ⟨fault | _, machine⟩
  · exact absurd rfl (ended machine)
  · rfl
  · cases policy <;> rfl
  · rfl

/-- A worker begins where a run of one's own begins, one turn later. -/
theorem settle_spawned (resting : interpreter.At (.resting none)) (start : Option UInt32) :
    ∃ spawned, spawn start none interpreter = .ok () spawned ∧
      ∀ limit, settle (limit + 1) spawned = interpreter.cleared.settled
        (Machine.turns interpreter.table (fun _ => false) 0 limit
          (interpreter.launched start)) := by
  let spawned := { interpreter with
    machine := interpreter.begun start, worker := some .starting, stopReason := none }
  have hspawn : spawn start none interpreter = .ok () spawned := by
    simp only [spawn, beginRun_of_resting resting start, spawned]
  have advances : spawned.advance =
      interpreter.cleared.settled (.ok none (interpreter.launched start)) := by
    obtain ⟨⟨⟨r, bus⟩, hooks, control, log, trace⟩, table, config, error, reason, worker⟩ :=
      interpreter
    rfl
  refine ⟨spawned, hspawn, fun limit => ?_⟩
  have busy : spawned.isBusy = true := rfl
  rw [settle, busy, if_pos rfl, advances]
  exact settle_looping interpreter.cleared (interpreter.launched start) 0 limit

/-- A concurrent run is a run of one's own that is delivered later. On an interpreter that rests and
has no failure to be collected, for every program, start address and error policy, let a run of
one's own end without a cancellation from outside. Then a run can be handed to a worker, and however
many turns the worker takes before somebody waits for it, waiting yields what the run of one's own
returned, with a panic delivered as a fault, and leaves the very same interpreter behind: registers,
memory, hooks and their calls, trace, last error and stop reason, and everything that a later
request depends on. The interpreter is idle then; if a hook has panicked, its registers are what the
hook saw. -/
theorem wait_of_spawn (interpreter : Interpreter) (resting : interpreter.At (.resting none))
    (start : Option UInt32) (limit : Nat)
    (ends : ∀ next, run start (fun _ => false) limit interpreter ≠ .ok false next) :
    let inline := run start (fun _ => false) limit interpreter
    let last := Action.stateAfter inline
    ∃ spawned, spawn start none interpreter = .ok () spawned ∧
      (∀ early patience, limit < early + patience →
        wait patience (settle early spawned) = delivered inline ∧
          Action.stateAfter (wait patience (settle early spawned)) = last) ∧
      last.phase = .idle ∧
      (inline = .error .panic last → ∃ (sighting : Sighting) (machine : Machine),
        machine.PanickedAt sighting ∧
          last.machine = { machine with control := machine.control.release } ∧
          last.registers = sighting.registers) := by
  intro inline last
  have hinline : inline = interpreter.cleared.handedBack
      (Machine.turns interpreter.table (fun _ => false) 0 limit (interpreter.launched start)) :=
    run_eq_handedBack resting start _ limit
  have ended (machine : Machine) :
      Machine.turns interpreter.table (fun _ => false) 0 limit (interpreter.launched start) ≠
        .ok none machine := by
    intro unfinished
    rw [unfinished] at hinline
    exact ends _ hinline
  obtain ⟨spawned, hspawn, hsettle⟩ := settle_spawned resting start
  have hpanics := Machine.panicsByHook_turns interpreter.table (fun _ => false) 0 limit
    (interpreter.launched start)
  specialize hsettle limit
  generalize Machine.turns interpreter.table (fun _ => false) 0 limit
    (interpreter.launched start) = outcome at hinline ended hsettle hpanics
  have same : Action.stateAfter (delivered inline) = last := by
    simp only [last]
    rcases inline with _ | ⟨_ | _, _⟩ <;> rfl
  refine ⟨spawned, hspawn, ?_, ?_, ?_⟩
  · intro early patience enough
    obtain ⟨spare, total⟩ := Nat.exists_eq_add_of_le (Nat.succ_le_of_lt enough)
    have quiet := @isBusy_settled interpreter.cleared _ ended
    have settled : settle patience (settle early spawned) =
        interpreter.cleared.settled outcome := by
      rw [← settle_add, total, settle_add, hsettle, settle_of_quiet quiet]
    have delivers := wait_of_settled ended settled
    rw [← hinline] at delivers
    exact ⟨delivers, delivers ▸ same⟩
  · simp only [last, hinline]
    rcases outcome with ⟨_ | reason, machine⟩ | ⟨fault | _, machine⟩
    · exact absurd rfl (ended machine)
    · rfl
    · simp only [handedBack, stateAfter_report]
      rfl
    · rfl
  · intro panics
    rw [panics] at hinline
    rcases outcome with ⟨_ | reason, machine⟩ | ⟨fault | _, machine⟩
    · cases hinline
    · cases hinline
    · let failed := { interpreter.cleared with machine }.finish .error
      rcases report_cases fault true (failed.keepError fault).release with h | h <;>
        cases hinline.trans h
    · obtain ⟨sighting, panicked⟩ := hpanics machine rfl
      have final : last = { interpreter.cleared with machine }.release := by
        injection hinline
      exact ⟨sighting, machine, panicked, congrArg Interpreter.machine final,
        (congrArg Interpreter.registers final).trans panicked.1⟩

/-- A hook panics at the first instruction of a program. The panic is delivered as a fault. -/
theorem wait_of_spawn_panicking_hook :
    let registry : Registry := [⟨0x42, .wdm, .immediate⟩]
    let table : DispatchTable :=
      { registry, admissible := ⟨by decide, by decide⟩
        entries := .ofFn fun i => registry.entry (.ofNat i), entries_eq := rfl }
    let bus := Bus.flat (.whole (Memory.least.setAll 0 [0x42, 0x01]))
    let hook : Hook := { react := fun _ _ => { panic := true } }
    let interpreter := (create ⟨{}, bus⟩ table {}).alterMachine fun machine =>
      { machine with hooks := machine.hooks.put 0 (some hook) }
    interpreter.At (.resting none) ∧
      (∀ next, run none (fun _ => false) 1 interpreter ≠ .ok false next) ∧
      ∃ spawned, spawn none none interpreter = .ok () spawned ∧
        ∃ last, wait 2 spawned = .error (.fault (.invalidOperation .workerPanicked)) last ∧
          last.phase = .idle := by
  intro registry table bus hook interpreter
  have resting : interpreter.At (.resting none) := ⟨rfl, rfl, rfl⟩
  have panics : (match run none (fun _ => false) 1 interpreter with
      | .error .panic _ => true
      | _ => false) = true := by
    decide +kernel
  obtain ⟨last, inline⟩ : ∃ last, run none (fun _ => false) 1 interpreter = .error .panic last := by
    split at panics
    · next last inline => exact ⟨last, inline⟩
    · cases panics
  have ends (next : Interpreter) : run none (fun _ => false) 1 interpreter ≠ .ok false next := by
    rw [inline]
    exact nofun
  obtain ⟨spawned, hspawn, delivers, idle, -⟩ := wait_of_spawn interpreter resting none 1 ends
  obtain ⟨hwait, -⟩ := delivers 0 2 (by decide)
  rw [inline] at hwait idle
  exact ⟨resting, ends, spawned, hspawn, last, hwait, idle⟩

end Interpreter

end W65C816
