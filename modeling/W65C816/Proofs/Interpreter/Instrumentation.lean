import W65C816.Proofs.Interpreter.Runs
import W65C816.Proofs.Program.Hooks

/-!
# Instrumentation is exact

A call of `runOnce` makes the call of a hook that its instruction summons and no other, so a number
of calls make the calls of hooks that they summon, one after another: `Interpreter.summoned` lists
them, each with the registers as the calls before have left them. A run leaves the machine as some
number of calls does, up to what hooks were told of the phase, and so the hooks that it has called
are those.
-/

set_option autoImplicit false

namespace W65C816

namespace Machine

/-- Machines that are alike have the same entries in their logs. -/
theorem Alike.entries_eq {machine other : Machine} (h : machine.Alike other) :
    machine.log.toList.map HookCall.entry = other.log.toList.map HookCall.entry := by
  have factors : HookCall.entry = HookCall.entry ∘ HookCall.withoutPhase := rfl
  rw [factors, ← List.map_map, ← List.map_map, h.log]

/-- What hooks were told of the phase makes no difference to which of them were called. -/
theorem Called.of_alike {calls : List Summons} {machine next last : Machine}
    (h : Called calls machine next) (alike : last.Alike next) : Called calls machine last where
  log := alike.entries_eq.trans h.log
  hooks := by
    rw [alike.hooks]
    exact h.hooks

end Machine

namespace Interpreter

variable {interpreter : Interpreter}

/-- The calls of hooks that the instructions of a number of calls of `runOnce` summon. -/
def summoned (interpreter : Interpreter) (calls : Nat) : List Summons :=
  (List.range calls).filterMap fun call =>
    (interpreter.afterCalls call).machine.summons interpreter.table

/-- One call calls the hook that its instruction summons, and no other. -/
theorem called_afterCall (rests : interpreter.Rests) :
    interpreter.machine.Called (interpreter.machine.summons interpreter.table).toList
      interpreter.afterCall.machine := by
  have h := (Machine.answered_step interpreter.table interpreter.active).called
  rcases call_cases interpreter rests.idle rests.calm with
    ⟨record, next, hstep, -, hafter⟩ | ⟨fault, next, hstep, -, -, hafter⟩ <;>
    rw [hstep] at h <;> rw [hafter] <;> exact ⟨h.log, h.hooks⟩

/-- Any number of calls, by induction on it. -/
theorem called_afterCalls (rests : interpreter.Rests) (calls : Nat) :
    interpreter.machine.Called (interpreter.summoned calls)
      (interpreter.afterCalls calls).machine := by
  induction calls with
  | zero => exact .of_eq rfl rfl
  | succ calls ih =>
    have last := called_afterCall (rests.afterCalls calls)
    rw [table_afterCalls rests calls] at last
    have summoned_succ : interpreter.summoned (calls + 1) = interpreter.summoned calls ++
        ((interpreter.afterCalls calls).machine.summons interpreter.table).toList := by
      simp only [summoned, List.range_succ, List.filterMap_append, List.filterMap_cons,
        List.filterMap_nil]
      cases (interpreter.afterCalls calls).machine.summons interpreter.table <;> rfl
    rw [summoned_succ]
    exact ih.trans last

/-- A run leaves a machine behind that is alike the one after some number of calls. -/
theorem exists_alike_of_run (ready : interpreter.IsReady)
    (calm : interpreter.machine.hooks.Calm) (start : Option UInt32) (cancels : Nat → Bool)
    (limit : Nat) :
    ∃ n ≤ limit, (Action.stateAfter (run start cancels limit interpreter)).machine.Alike
      ((interpreter.alterRegisters fun r => (r.startAt start).resume).afterCalls n).machine := by
  obtain ⟨n, hn, reaches, -⟩ :=
    turns_follow (ready.rests calm _) limit (follows_launched interpreter start cancels)
  rw [Nat.zero_add] at hn
  exact ⟨n, hn, (run_outcome ready start cancels limit).1.trans reaches.alike⟩

/-- Instrumentation is exact, for every table, program and choice of registers, and for every set of
hooks that do not panic. Any number of calls of `runOnce` makes the calls of hooks that are summoned
by their instructions, in this order, and no others; and so does a run of any length, each of whose
instructions finds the registers and the memory as that many calls leave them. A hook is summoned by
a `WDM` whose operand is one more than the index of its slot, and sees the registers with the
program counter moved and nothing else changed. Each single step, whatever it is a part of, calls
what its instruction summons. A `WDM` that summons nothing changes the program counter and the count
of instructions only; what else may change is the trace, in which every instruction is noted.

When an assembler has registered a hook and written the instruction for it, then wherever the slot
and the bytes are still the same, what was written is read under any widths, summons that very hook,
and calls it once when it is executed. -/
theorem hooks_called_exactly (interpreter : Interpreter) (ready : interpreter.IsReady)
    (calm : interpreter.machine.hooks.Calm) (start : Option UInt32) (cancels : Nat → Bool)
    (limit : Nat) :
    let table := interpreter.table
    let first := interpreter.alterRegisters fun r => (r.startAt start).resume
    let last := Action.stateAfter (run start cancels limit interpreter)
    (∀ calls, interpreter.machine.Called (interpreter.summoned calls)
      (interpreter.afterCalls calls).machine) ∧
    (∃ n ≤ limit, last.machine.Alike (first.afterCalls n).machine ∧
      interpreter.machine.Called (first.summoned n) last.machine) ∧
    (∀ machine, Machine.Answered (machine.summons table) machine
      (Action.stateAfter (Machine.step table machine))) ∧
    (∀ (machine : Machine) (record : Record),
      table.decodeAt machine.bus machine.registers.fullPc machine.registers.widths = .ok record →
      record.instruction.opcode = .wdm → machine.summons table = none →
        ∃ trace, Machine.step table machine = .ok record { machine with
          core := ⟨{ machine.registers with
            pc := machine.registers.pc + UInt16.ofNat record.length
            instructions := machine.registers.instructions + 1 }, machine.bus⟩
          trace }) ∧
    ∀ (hook : Hook) (index : Nat) (assembler after : Assembler),
      Assembler.writeHook hook assembler = .ok index after →
      assembler.hooks.get? index = none ∧ after.hooks.get? index = some hook ∧
        ∀ (machine : Machine) (calls : Nat) (widths : Widths),
          machine.hooks.get? index = some { hook with calls } →
          after.bus.SameBytes machine.bus assembler.offset after.offset →
          ∃ record, assembler.table.decodeAt machine.bus assembler.offset widths = .ok record ∧
            record.next = after.offset ∧
            (∀ registers, record.summons machine.hooks registers = some
              { index, hook := { hook with calls }
                sighting := { slot := UInt8.ofNat (index + 1)
                              instruction := record.instruction, registers } }) ∧
            Machine.Answered (record.summons machine.hooks machine.registers) machine
              (Action.stateAfter
                (Machine.execute record.instruction record.operands machine)) := by
  intro table first last
  have rests : interpreter.Rests :=
    ⟨(Control.phase_eq_idle_iff _).mp ready.idle, calm⟩
  refine ⟨called_afterCalls rests, ?_, Machine.answered_step table, ?_, ?_⟩
  · obtain ⟨n, hn, alike⟩ := exists_alike_of_run ready calm start cancels limit
    have called := @called_afterCalls first ⟨rests.idle, calm⟩ n
    have same := called.of_alike alike
    exact ⟨n, hn, alike, same.log, same.hooks⟩
  · intro machine record read wdm idle
    exact ⟨_, Machine.step_of_summons_eq_none read wdm idle⟩
  · intro hook index assembler after written
    have wrote := Assembler.wrote_of_writeHook written
    refine ⟨wrote.empty, ?_, ?_⟩
    · rw [wrote.hooks, HookTable.get?_put, if_pos ⟨rfl, wrote.inside⟩]
    · intro machine calls widths slot bytes
      obtain ⟨record, read, next, -, summons⟩ := wrote.summons slot bytes widths
      exact ⟨record, read, next, summons, Machine.answered_execute record machine⟩

/-- Four `WDM` in a row, with the number of a hook, zero, the greatest number, and the number of an
empty slot. Another hook is written onto a memory of its own. -/
theorem hooks_called_exactly_four_operands :
    let registry : Registry := [⟨0x42, .wdm, .immediate⟩]
    let table : DispatchTable :=
      { registry, admissible := ⟨by decide, by decide⟩
        entries := .ofFn fun i => registry.entry (.ofNat i), entries_eq := rfl }
    let program : List UInt8 := [0x42, 0x01, 0x42, 0x00, 0x42, 0xFF, 0x42, 0x02]
    let bus := Bus.flat (.whole (Memory.least.setAll 0 program))
    let interpreter := (create ⟨{}, bus⟩ table {}).alterMachine fun machine =>
      { machine with hooks := machine.hooks.put 0 (some {}) }
    let assembler : Assembler :=
      { table, bus := .flat (.whole Memory.least), hooks := {}, offset := 0 }
    interpreter.IsReady ∧ interpreter.machine.hooks.Calm ∧
      (interpreter.afterCalls 4).machine.log.toList.map HookCall.entry =
        [(none, 1, { slot := 1, instruction := ⟨0x42, .wdm, .immediate⟩
                     registers := { pc := 2 } })] ∧
      ∃ after, Assembler.writeHook {} assembler = .ok 0 after ∧
        ∃ record, table.decodeAt after.bus 0 {} = .ok record ∧ record.next = after.offset := by
  intro registry table program bus interpreter assembler
  have ready : interpreter.IsReady := ⟨rfl, fun _ => nofun⟩
  have calm : interpreter.machine.hooks.Calm :=
    HookTable.calm_default.put 0 fun _ _ => rfl
  obtain ⟨calls, -, -, -, writes⟩ :=
    hooks_called_exactly interpreter ready calm none (fun _ => false) 4
  have summoned : ((interpreter.summoned 4).filter fun call => call.hook.logged).map Summons.entry =
      [(none, 1, { slot := 1, instruction := ⟨0x42, .wdm, .immediate⟩
                   registers := { pc := 2 } })] := by
    decide +kernel
  have log := (calls 4).log
  rw [summoned] at log
  obtain ⟨after, written⟩ : ∃ after, Assembler.writeHook {} assembler = .ok 0 after :=
    ⟨_, Action.eq_ok_of_yields (by decide +kernel)⟩
  obtain ⟨-, slot, reads⟩ := writes {} 0 assembler after written
  let machine : Machine := { core := ⟨{}, after.bus⟩, hooks := after.hooks }
  obtain ⟨record, read, next, -⟩ := reads machine 0 {} slot fun _ _ => rfl
  exact ⟨ready, calm, log, after, written, record, read, next⟩

end Interpreter

end W65C816
