import W65C816.Proofs.Execution.Widths
import W65C816.Proofs.Interpreter.Calls
import W65C816.Proofs.Memory.Windows
import W65C816.Proofs.Program.Fetching

/-!
# A disassembler reads what calls carry out

Calls that succeed one after another carry out a straight line of code when the program counter goes
past each instruction to the next one, nothing is written where the instructions lie, and none of
them exchanges the mode or restores the status from the stack. A disassembler that starts where the
first call does, with the widths of the processor then, and follows width changes in its mode, comes
upon the same records: `Interpreter.disassembly_of_calls`. After each of them it holds the widths
that the processor has.
-/

set_option autoImplicit false

namespace W65C816

/-! ## What a call that succeeds has done -/

namespace Machine

/-- A step leaves a flat bus flat, and its view as long as it was. -/
theorem flat_of_step {table : DispatchTable} {machine next : Machine} {record : Record}
    {view : View} (h : step table machine = .ok record next) (flat : machine.bus = .flat view) :
    ∃ view', next.bus = .flat view' ∧ view'.length = view.length := by
  obtain ⟨⟨r, bus⟩, hooks, control, log, trace⟩ := machine
  have bisimulation := Bus.bisimulation_twins bus bus
  have same : Over (Bus.Twins bus bus) ⟨⟨r, bus⟩, hooks, control, log, trace⟩
      ⟨⟨r, bus⟩, hooks, control, log, trace⟩ :=
    ⟨⟨r, (Bus.Mirrors.refl bus).twins⟩, hooks, control, log, trace⟩
  have hmatch := respects_step bisimulation table _ _ same
  rw [h] at hmatch
  cases hmatch with
  | ok _ alike =>
    have twins : Bus.Twins bus bus next.bus next.bus := by
      cases alike with
      | intro related =>
        cases related with
        | intro r related => exact related
    have here : bus = .flat view := flat
    rw [here] at twins
    generalize next.bus = left at twins
    cases twins with
    | flat twins => exact ⟨_, rfl, twins.first.length⟩

end Machine

namespace Interpreter

/-- The record that the next call returns, if it carries out its instruction. -/
def returned (interpreter : Interpreter) : Option Record :=
  match runOnce none interpreter with
  | .ok record _ => record
  | .error _ _ => none

/-- The record that the next call returns is what it answers. -/
theorem runOnce_of_returned {interpreter : Interpreter} {record : Record}
    (h : interpreter.returned = some record) :
    runOnce none interpreter = .ok (some record) interpreter.afterCall := by
  unfold returned at h
  unfold afterCall
  split at h
  · next found next hcall =>
    rw [hcall, h]
    rfl
  · cases h

/-- A call returns a record when its step succeeds, on an interpreter that is idle. -/
theorem step_of_call {interpreter next : Interpreter} {record : Record}
    (h : runOnce none interpreter = .ok (some record) next) :
    ∃ last, Machine.step interpreter.table interpreter.active = .ok record last ∧
      next = interpreter.withMachine last := by
  by_cases idle : interpreter.machine.control.running = false
  · rw [runOnce_eq interpreter idle] at h
    split at h
    · next found last hstep =>
      cases h
      exact ⟨last, hstep, rfl⟩
    · next fault last _ =>
      rcases report_cases fault none ((interpreter.withMachine last).keepError fault) with
        same | same <;> cases same.symm.trans h
    · cases h
  · rw [Bool.not_eq_false] at idle
    simp only [runOnce, carryOut, begin_of_running idle] at h
    cases h

/-- What a call that returns a record has to do with the record: it was read where the program
counter was, under the widths of the registers, and says which widths come next. -/
structure Carries (interpreter : Interpreter) (record : Record) (next : Interpreter) : Prop where
  read : interpreter.table.decodeAt interpreter.machine.bus interpreter.registers.fullPc
    interpreter.registers.widths = .ok record
  valid : record.instruction.isValid = true
  table : next.table = interpreter.table
  flat : ∀ view, interpreter.machine.bus = .flat view →
    ∃ view', next.machine.bus = .flat view' ∧ view'.length = view.length
  mode : record.instruction.opcode ∉ [Opcode.xce, .plp, .rti] →
    next.registers.emulation = interpreter.registers.emulation ∧
      next.registers.widths = interpreter.registers.widthsAfter record

/-- A call that returns a record carries it out. -/
theorem carries_of_call {interpreter next : Interpreter} {record : Record}
    (h : runOnce none interpreter = .ok (some record) next) : interpreter.Carries record next := by
  obtain ⟨last, hstep, rfl⟩ := step_of_call h
  obtain ⟨read, executed, hexecuted, -⟩ := Machine.exists_executed_of_step hstep
  refine ⟨read, Machine.isValid_of_execute hexecuted, rfl, ?_, ?_⟩
  · intro view flat
    have active : interpreter.active.bus = .flat view := flat
    have kept := Machine.flat_of_step hstep active
    exact kept
  · intro stays
    have mode := Machine.widths_of_step hstep stays
    exact mode

end Interpreter

namespace Interpreter

/-! ## Straight lines -/

/-- The next calls carry out a straight line of code. -/
structure StraightLine (interpreter : Interpreter) (records : List Record) : Prop where
  calls : ∀ i (h : i < records.length), (interpreter.afterCalls i).returned = some records[i]
  /-- None of them exchanges the mode or restores the status. -/
  stays : ∀ record ∈ records, record.instruction.opcode ∉ [Opcode.xce, .plp, .rti]
  /-- After each of them the program counter is behind its record. -/
  onward : ∀ i (h : i < records.length),
    (interpreter.afterCalls (i + 1)).registers.fullPc.toNat =
      (interpreter.afterCalls i).registers.fullPc.toNat + records[i].length
  /-- None of them changes a byte of what is carried out by any of them. -/
  unwritten : ∀ i < records.length, ∀ p, interpreter.registers.fullPc.toNat ≤ p →
    p < (interpreter.afterCalls records.length).registers.fullPc.toNat →
      (interpreter.afterCalls (i + 1)).machine.bus.view.byteAt p =
        (interpreter.afterCalls i).machine.bus.view.byteAt p

namespace StraightLine

variable {interpreter : Interpreter} {records : List Record} {calls : Nat}

/-- Each call of a straight line carries out its record. -/
theorem carries (line : interpreter.StraightLine records) {i : Nat} (h : i < records.length) :
    (interpreter.afterCalls i).Carries records[i] (interpreter.afterCalls (i + 1)) :=
  carries_of_call (runOnce_of_returned (line.calls i h))

/-- What stays the same from one call to the next, by induction on the calls. -/
theorem settings (line : interpreter.StraightLine records) {view : View}
    (flat : interpreter.machine.bus = .flat view) (h : calls ≤ records.length) :
    (interpreter.afterCalls calls).table = interpreter.table ∧
      (interpreter.afterCalls calls).registers.emulation = interpreter.registers.emulation ∧
      ∃ view', (interpreter.afterCalls calls).machine.bus = .flat view' ∧
        view'.length = view.length := by
  induction calls with
  | zero => exact ⟨rfl, rfl, view, flat, rfl⟩
  | succ calls ih =>
    obtain ⟨table, emulation, earlier, hearlier, length⟩ := ih (Nat.le_of_succ_le h)
    have carries := line.carries h
    obtain ⟨later, hlater, length'⟩ := carries.flat earlier hearlier
    have mode := carries.mode (line.stays _ (List.getElem_mem h))
    exact ⟨carries.table.trans table, mode.1.trans emulation, later, hlater, length'.trans length⟩

/-- The program counter never goes back. -/
theorem fullPc_mono (line : interpreter.StraightLine records) {earlier later : Nat}
    (order : earlier ≤ later) (h : later ≤ records.length) :
    (interpreter.afterCalls earlier).registers.fullPc.toNat ≤
      (interpreter.afterCalls later).registers.fullPc.toNat := by
  induction order with
  | refl => exact Nat.le_refl _
  | @step later order ih =>
    have before := ih (Nat.le_of_succ_le h)
    have onward : (interpreter.afterCalls later.succ).registers.fullPc.toNat = _ :=
      line.onward later h
    omega

/-- The code is at every moment what it was at first. -/
theorem byteAt_eq (line : interpreter.StraightLine records) (h : calls ≤ records.length) {p : Nat}
    (first : interpreter.registers.fullPc.toNat ≤ p)
    (last : p < (interpreter.afterCalls records.length).registers.fullPc.toNat) :
    (interpreter.afterCalls calls).machine.bus.view.byteAt p =
      interpreter.machine.bus.view.byteAt p := by
  induction calls with
  | zero => rfl
  | succ calls ih =>
    have step := line.unwritten calls h p first last
    exact step.trans (ih (Nat.le_of_succ_le h))

/-- At every moment a disassembler would read the record of a call where the call read it. -/
theorem decodeAt_eq (line : interpreter.StraightLine records) {view : View}
    (flat : interpreter.machine.bus = .flat view) {i moment : Nat} (h : i < records.length)
    (hmoment : moment ≤ records.length) :
    interpreter.table.decodeAt (interpreter.afterCalls moment).machine.bus
      (interpreter.afterCalls i).registers.fullPc (interpreter.afterCalls i).registers.widths =
        .ok records[i] := by
  have carries := line.carries h
  obtain ⟨table, -, earlier, hearlier, length⟩ := line.settings flat (Nat.le_of_lt h)
  obtain ⟨-, -, now, hnow, length'⟩ := line.settings flat hmoment
  have read := carries.read
  rw [table, hearlier] at read
  rw [hnow]
  refine DispatchTable.decodeAt_frame read (length'.trans length.symm) ?_
  intro p first last
  have onward := line.onward i h
  have start := line.fullPc_mono (Nat.zero_le i) (Nat.le_of_lt h)
  have stop : (interpreter.afterCalls (i + 1)).registers.fullPc.toNat ≤ _ :=
    line.fullPc_mono h (Nat.le_refl _)
  have start' : interpreter.registers.fullPc.toNat ≤ p := Nat.le_trans start first
  have before := line.byteAt_eq (Nat.le_of_lt h) start' (by omega)
  have after := line.byteAt_eq hmoment start' (by omega)
  rw [hearlier] at before
  rw [hnow] at after
  exact after.trans before.symm

end StraightLine

/-- Calls on a flat view that carry out a straight line of code return the records that a
disassembler comes upon. It may look at the memory before the first call, after the last one, or at
any moment between; it starts where the first call does, with the widths that the processor has
then, and follows the width changes in its mode. Behind each record it stands where the processor
stands and holds the widths that the processor has. -/
theorem disassembly_of_calls (interpreter : Interpreter) {view : View}
    (flat : interpreter.machine.bus = .flat view) {records : List Record}
    (line : interpreter.StraightLine records) {moment calls : Nat}
    (hmoment : moment ≤ records.length) (hcalls : calls ≤ records.length) :
    let walk : Disassembler :=
      { table := interpreter.table
        bus := (interpreter.afterCalls moment).machine.bus
        offset := interpreter.registers.fullPc
        widths := interpreter.registers.widths
        follow := true
        emulation := interpreter.registers.emulation }
    ∃ passed, walk.Yields ((records.take calls).map .ok) passed ∧
      passed.offset = (interpreter.afterCalls calls).registers.fullPc ∧
      passed.widths = (interpreter.afterCalls calls).registers.widths := by
  intro walk
  induction calls with
  | zero => exact ⟨walk, .nil walk, rfl, rfl⟩
  | succ calls ih =>
    obtain ⟨passed, yields, offset, widths⟩ := ih (Nat.le_of_succ_le hcalls)
    have carries := line.carries hcalls
    have read := line.decodeAt_eq flat hcalls hmoment
    obtain ⟨-, emulation, -⟩ := line.settings flat (Nat.le_of_succ_le hcalls)
    obtain ⟨-, -, now, hnow, -⟩ := line.settings flat hmoment
    have kept := yields.sameSettings
    have hbus : passed.bus = .flat now := kept.bus.trans hnow
    have hread : passed.table.decodeAt passed.bus passed.offset passed.widths =
        .ok records[calls] := by
      rw [kept.table, kept.bus, offset, widths]
      exact read
    have place := hread
    rw [hbus] at place
    -- The record lies inside the view, so the disassembler has not come to the end of it.
    obtain ⟨-, room, behind⟩ := DispatchTable.place_of_decodeAt place
    have onward := line.onward calls hcalls
    have mode := (carries.mode (line.stays _ (List.getElem_mem hcalls))).2
    have going : passed.isDone = false := by
      rw [Disassembler.isDone, yields.failed_eq, hbus, Bool.or_eq_false_iff,
        decide_eq_false_iff_not]
      have inside : passed.offset.toNat < now.length := by
        rw [Record.length] at room
        omega
      exact ⟨rfl, Nat.not_le.mpr inside⟩
    have hnext := Disassembler.next?_of_going going
    rw [hread] at hnext
    refine ⟨passed.pass records[calls], ?_, ?_, ?_⟩
    · rw [List.take_succ_eq_append_getElem hcalls, List.map_append]
      exact yields.snoc hnext
    · apply UInt32.toNat.inj
      rw [offset] at behind
      exact behind.trans onward.symm
    · have followed : (passed.pass records[calls]).widths =
          if (true && !interpreter.registers.emulation) = true then
            passed.widths.after records[calls]
          else passed.widths := by
        rw [Disassembler.pass, kept.follow, kept.emulation]
      rw [followed, mode, Registers.widthsAfter, emulation, ← widths]
      cases interpreter.registers.emulation <;> rfl

/-- Two instructions in native mode, the first of which makes the accumulator wide, so that the
second one has a word for its operand. -/
theorem disassembly_of_calls_widening :
    let program : List UInt8 := [0xC2, 0x20, 0xA9, 0x34, 0x12]
    let rep : Record :=
      { offset := 0, instruction := ⟨0xC2, .rep, .immediate⟩
        operands := { first := 0x20, length := 1 } }
    let lda : Record :=
      { offset := 2, instruction := ⟨0xA9, .lda, .immediate⟩
        operands := { first := 0x1234, length := 2 } }
    let bus := Bus.flat (.whole (Memory.least.setAll 0 program))
    let registry : Registry := [rep.instruction, lda.instruction]
    let table : DispatchTable :=
      { registry, admissible := ⟨by decide, by decide⟩
        entries := .ofFn fun i => registry.entry (.ofNat i), entries_eq := rfl }
    let interpreter := create ⟨{ emulation := false }, bus⟩ table {}
    let walk : Disassembler :=
      { table, bus := (interpreter.afterCalls 2).machine.bus
        offset := interpreter.registers.fullPc, widths := interpreter.registers.widths
        follow := true }
    interpreter.StraightLine [rep, lda] ∧
      ∃ passed, walk.Yields [.ok rep, .ok lda] passed ∧
        passed.widths = (interpreter.afterCalls 2).registers.widths := by
  intro program rep lda bus registry table interpreter walk
  have evaluated : (∀ i (h : i < 2), (interpreter.afterCalls i).returned = some [rep, lda][i] ∧
      (interpreter.afterCalls (i + 1)).registers.fullPc.toNat =
        (interpreter.afterCalls i).registers.fullPc.toNat + [rep, lda][i].length ∧
      ∀ p < 5, (interpreter.afterCalls (i + 1)).machine.bus.view.byteAt p =
        (interpreter.afterCalls i).machine.bus.view.byteAt p) ∧
      (interpreter.afterCalls 2).registers.fullPc.toNat = 5 := by
    decide +kernel
  obtain ⟨steps, stop⟩ := evaluated
  have line : interpreter.StraightLine [rep, lda] := by
    refine ⟨fun i h => (steps i h).1, by decide, fun i h => (steps i h).2.1, ?_⟩
    intro i h p _ last
    have below : p < 5 := Nat.lt_of_lt_of_eq last stop
    exact (steps i h).2.2 p below
  obtain ⟨passed, yields, -, widths⟩ := disassembly_of_calls interpreter rfl line
    (Nat.le_refl 2) (Nat.le_refl 2)
  exact ⟨line, passed, yields, widths⟩

end Interpreter

end W65C816
