import W65C816.Proofs.Execution.Outcomes
import W65C816.Proofs.Memory.AllOrNothing
import W65C816.Proofs.Program.Encoding

/-!
# Instructions that fail

What an instruction leaves behind when it fails is a matter of the kind of its effect. An effect is
staged if it changes something before the last of the accesses that it may fail at: a pull moves the
stack pointer first, and whatever pushes more than a byte moves it in between. All other effects are
atomic. For most of them the reason is that they begin with questions and end with their one write;
where an operand is replaced, the flags change before the result is written, but a result can be
written wherever the operand was read. `Opcode.Staged` says which operations have staged effects,
and `Machine.atomic_of_not_staged` what becomes of the machine when any other instruction fails.
-/

set_option autoImplicit false

namespace W65C816

open Addressing
open W65C816.Action (Atomic)

/-! ## Actions on the core -/

namespace Exec

variable {α : Type}

/-- Reading the registers first takes nothing away from atomicity. -/
theorem atomic_registers_bind {rest : Registers → Exec α} {core : Core}
    (h : Atomic (rest core.registers) core) : Atomic (registers >>= rest) core := h

/-- A question may fail before the rest, since it changes nothing. -/
theorem atomic_ask_bind {β : Type} {question : Registers → Bus → Except Fault α}
    {rest : α → Exec β} {core : Core} (h : ∀ value, Atomic (rest value) core) :
    Atomic (ask question >>= rest) core :=
  Action.atomic_look_bind fun value _ => h value

/-- An atomic action on the bus is atomic on the core. -/
theorem atomic_onBus {action : EStateM Fault Bus α} {core : Core} (h : Atomic action core.bus) :
    Atomic (onBus action) core := by
  intro fault next failed
  obtain ⟨bus, refused, rfl⟩ := Action.place_eq_error_iff.mp failed
  rw [h refused]

/-- A byte is pushed or it is not. -/
theorem atomic_push8 (value : UInt8) (core : Core) : Atomic (push8 value) core :=
  atomic_registers_bind <| Action.Atomic.bind_of_ok
    (atomic_onBus (Bus.atomic_write8 _ _ core.bus)) fun _ _ => ⟨_, _, rfl⟩

end Exec

/-! ## Effects -/

namespace Effect

/-- The effect changes the core before the last access that it may fail at. -/
def Staged (r : Registers) : Effect → Prop
  | .push width _ => width r = .word
  | .pushIndirect | .pull .. | .call | .callLong | .returnNear | .returnLong
  | .returnFromInterrupt | .interrupt .. => True
  | .registers .. | .operand .. | .read .. | .write .. | .replace .. | .jump .. | .move .. => False

/-- The flags are changed before the result is written, but that write does not fail: the operand
was read at the same width from the same place. -/
theorem atomic_replaceMemory (result : Registers → UInt16 → UInt16 × Registers) (mode : Mode)
    (operand : UInt32) (core : Core) : Atomic (replaceMemory result mode operand) core := by
  intro fault next failed
  rw [replaceMemory_apply] at failed
  split at failed
  · cases failed
    rfl
  · split at failed
    · cases failed
      rfl
    · next address _ old read =>
      obtain ⟨bus, written⟩ := Bus.exists_writeAt_of_readAt read (result core.registers old).1
      rw [written] at failed
      cases failed

/-- The byte is read before anything happens, and the registers change after it was written. -/
theorem atomic_performMove (step : UInt16 → UInt16) (source destination : UInt8) (core : Core) :
    Atomic (performMove step source destination) core :=
  Exec.atomic_registers_bind <| Exec.atomic_ask_bind fun _ =>
    Action.Atomic.bind_of_ok (Exec.atomic_onBus (Bus.atomic_write8 _ _ core.bus))
      fun _ _ => ⟨_, _, rfl⟩

/-- An effect that is not staged is atomic, in every mode and on every operand. -/
theorem atomic_perform {effect : Effect} {core : Core} (whole : ¬ effect.Staged core.registers)
    (mode : Mode) (operands : Operands) : Atomic (effect.perform mode operands) core := by
  cases effect with
  | registers change => exact Action.atomic_of_ok rfl
  | operand change => exact Action.atomic_of_ok rfl
  | read width change =>
    intro fault next failed
    rw [perform_read_eq] at failed
    split at failed <;> cases failed
    rfl
  | write width value =>
    exact Exec.atomic_ask_bind fun _ => Exec.atomic_onBus (Bus.atomic_writeAt _ _ _ core.bus)
  | replace result =>
    simp only [perform]
    split
    · exact Action.atomic_of_ok rfl
    · exact atomic_replaceMemory result mode operands.first core
  | jump condition go =>
    have jumps : Atomic (Exec.ask (effectiveAddress mode operands.first) >>= fun address =>
        Exec.alter fun r => go r address) core :=
      Exec.atomic_ask_bind fun _ => Action.atomic_of_ok rfl
    change Atomic (Exec.onlyIf (condition core.registers) _) core
    unfold Exec.onlyIf
    split
    · exact jumps
    · exact Action.atomic_of_ok rfl
  | push width value =>
    have narrow : width core.registers = .byte := by
      cases found : width core.registers with
      | byte => rfl
      | word => exact absurd found whole
    refine Exec.atomic_registers_bind ?_
    rw [narrow]
    exact Exec.atomic_push8 _ core
  | move step => exact atomic_performMove step _ _ core
  | pushIndirect | pull | call | callLong | returnNear | returnLong | returnFromInterrupt
  | interrupt => exact absurd trivial whole

end Effect

/-! ## Instructions -/

/-- The operations with staged effects: pulls, returns, calls and interrupts, and the pushes of a
word. -/
def Opcode.Staged (r : Registers) : Opcode → Prop
  | .pla | .plx | .ply | .plb | .pld | .plp | .rts | .rtl | .rti | .jsr | .jsl | .brk | .cop
  | .phd | .pea | .pei | .per => True
  | .pha => r.memoryWidth = .word
  | .phx | .phy => r.indexWidth = .word
  | _ => False

/-- A staged effect belongs to a staged operation. -/
theorem Opcode.staged_of_effect? {opcode : Opcode} {mode : Mode} {effect : Effect}
    {r : Registers} (found : opcode.effect? mode = some effect) (staged : effect.Staged r) :
    opcode.Staged r := by
  cases opcode <;> simp only [Opcode.effect?, Option.some.injEq, reduceCtorEq] at found <;>
    subst found <;> simp_all [Effect.Staged, Opcode.Staged, Effect.combine, Effect.branch,
      Effect.flags, Effect.pushByte, Effect.pushWord]

/-- An operation that is not staged changes nothing when it fails. -/
theorem Instruction.atomic_execute {instruction : Instruction} {core : Core}
    (whole : ¬ instruction.opcode.Staged core.registers) (operands : Operands) :
    Atomic (instruction.execute operands) core := by
  unfold execute
  split
  · next effect found =>
    exact Effect.atomic_perform (fun staged => whole (Opcode.staged_of_effect? found staged)) _
      operands
  · intro fault next failed
    cases failed
    rfl

namespace Machine

/-- An action on the core fails with a fault, and leaves the machine around the core that it
leaves. -/
theorem onCore_eq_error_iff {α : Type} {action : Exec α} {machine next : Machine}
    {failure : Failure} :
    onCore action machine = .error failure next ↔
      ∃ fault core, action machine.core = .error fault core ∧ failure = .fault fault ∧
        next = { machine with core } := by
  obtain ⟨core, hooks, control, log, trace⟩ := machine
  simp only [onCore]
  cases action core with
  | ok value after => simp
  | error fault after =>
    simp only [EStateM.Result.error.injEq]
    constructor
    · rintro ⟨rfl, rfl⟩
      exact ⟨fault, after, ⟨rfl, rfl⟩, rfl, rfl⟩
    · rintro ⟨_, _, ⟨rfl, rfl⟩, rfl, rfl⟩
      exact ⟨rfl, rfl⟩

/-- A hook has no faults, and whatever it does, the core is as it was. -/
theorem callHook_eq_error {instruction : Instruction} {slot : UInt8} {machine next : Machine}
    {failure : Failure} (h : callHook instruction slot machine = .error failure next) :
    failure = .panic ∧ next.core = machine.core := by
  obtain ⟨core, hooks, control, log, trace⟩ := machine
  unfold callHook at h
  split at h
  · cases h
  · cases found : hooks.get? (slot.toNat - 1) with
    | none =>
      simp only [invoke, found] at h
      cases h
    | some hook =>
      simp only [invoke, found] at h
      split at h
      · cases h
      · next panicked =>
        unfold respond at panicked
        dsimp only at panicked
        split at panicked <;> cases panicked
        cases h
        exact ⟨rfl, rfl⟩

/-- An instruction that fails and is not staged leaves the core as it was, and the whole machine
unless it was a hook that failed. -/
theorem execute_eq_error {instruction : Instruction} {operands : Operands} {machine next : Machine}
    {failure : Failure} (whole : ¬ instruction.opcode.Staged machine.registers)
    (h : execute instruction operands machine = .error failure next) :
    next.core = machine.core ∧ (failure ≠ .panic → next = machine) := by
  unfold execute at h
  split at h
  · obtain ⟨rfl, same⟩ := callHook_eq_error h
    exact ⟨same, absurd rfl⟩
  · obtain ⟨fault, core, failed, rfl, rfl⟩ := onCore_eq_error_iff.mp h
    have same : core = machine.core := Instruction.atomic_execute whole operands failed
    subst same
    exact ⟨rfl, fun _ => rfl⟩

/-- Whatever the registers, the bus and the operands are, an instruction that is no pull, return,
call or interrupt and pushes no word leaves no trace on the core when it fails. A step that cannot
read an instruction leaves no trace on the machine at all. A step that fails in executing such an
instruction has moved the program counter past it and noted it in the trace. -/
theorem atomic_of_not_staged (table : DispatchTable) (machine : Machine) :
    (∀ instruction operands failure next, ¬ instruction.opcode.Staged machine.registers →
      execute instruction operands machine = .error failure next →
        next.core = machine.core ∧ (failure ≠ .panic → next = machine)) ∧
    (∀ fault, table.decodeAt machine.bus machine.registers.fullPc machine.registers.widths =
        .error fault →
      step table machine = .error (.fault fault) machine) ∧
    ∀ record failure next,
      table.decodeAt machine.bus machine.registers.fullPc machine.registers.widths = .ok record →
      ¬ record.instruction.opcode.Staged machine.registers →
      step table machine = .error failure next →
        next.core = ⟨machine.registers.advance record.length, machine.bus⟩ ∧
          (failure ≠ .panic → next = machine.about record) := by
  refine ⟨fun _ _ _ _ => execute_eq_error, fun _ => step_of_decodeAt_error, ?_⟩
  intro record failure next read whole failed
  rw [step_of_decodeAt read] at failed
  split at failed
  · cases failed
  · next found =>
    cases failed
    exact @execute_eq_error _ _ (machine.about record) _ _ whole found

/-- A word is to be incremented whose second byte would lie behind the end of the memory. -/
theorem atomic_of_not_staged_at_end :
    let increment : Instruction := { code := 0xF6, opcode := .inc, mode := .directIndexedX }
    let registry : Registry := [increment]
    let table : DispatchTable :=
      { registry, admissible := ⟨by decide, by decide⟩
        entries := .ofFn fun i => registry.entry (.ofNat i), entries_eq := rfl }
    let r : Registers := { emulation := false, status := {}, x := 0x01FF }
    let machine : Machine :=
      { core := ⟨r, .flat (.whole (Memory.least.setAll 0 [0xF6, 0x00]))⟩ }
    let failure : Failure := .fault (.outOfRange 0x0200 0x0200)
    execute increment { first := 0, length := 1 } machine = .error failure machine ∧
      ∃ next, step table machine = .error failure next ∧
        next.core = ⟨{ r with pc := 2 }, machine.bus⟩ := by
  intro increment registry table r machine failure
  let record : Record :=
    { offset := 0, instruction := increment, operands := { first := 0, length := 1 } }
  have plain : ¬ increment.opcode.Staged machine.registers := id
  have member : increment ∈ table.registry := List.mem_singleton_self _
  have holds : View.Holds (.whole (Memory.least.setAll 0 [0xF6, 0x00])) 0 [0xF6, 0x00] :=
    ⟨by decide +kernel, by decide +kernel, by decide +kernel, by decide +kernel, trivial⟩
  have read : table.decodeAt machine.bus machine.registers.fullPc machine.registers.widths =
      .ok record := by
    have here : machine.registers.fullPc = 0 := by decide
    rw [here]
    exact (table.decodeAt_flat_eq_ok_iff _ 0 _ record rfl).mpr
      ⟨rfl, DispatchTable.get_of_mem member, rfl, by decide, holds⟩
  obtain ⟨executed, refused⟩ : ∃ next, execute increment record.operands machine =
      .error failure next := ⟨_, Action.eq_error_of_failsWith (by decide +kernel)⟩
  obtain ⟨stepped, failed⟩ : ∃ next, step table machine = .error failure next := by
    obtain ⟨next, failed⟩ : ∃ next, execute increment record.operands (machine.about record) =
        .error failure next := ⟨_, Action.eq_error_of_failsWith (by decide +kernel)⟩
    rw [step_of_decodeAt read]
    exact ⟨next, by rw [failed]⟩
  obtain ⟨alone, -, within⟩ := atomic_of_not_staged table machine
  obtain ⟨-, whole⟩ := alone increment record.operands failure executed plain refused
  obtain ⟨core, -⟩ := within record failure stepped read plain failed
  rw [whole nofun] at refused
  exact ⟨refused, stepped, failed, core⟩

end Machine

end W65C816
