import W65C816.Execution.Machine

/-!
# What a step does

A step reads a record and fails without a trace if it cannot. Otherwise the record is noted and the
program counter moves past it, `Machine.about`; it is executed on the machine as it is then; and if
that succeeds it is counted, `Machine.counted`. These are equations, so that nothing else has to
take a step apart.
-/

set_option autoImplicit false

namespace W65C816.Machine

/-- The machine when a record is about to be executed: the record is noted, and the program counter
is behind it. -/
def about (record : Record) (machine : Machine) : Machine :=
  { machine with
    core := ⟨machine.registers.advance record.length, machine.bus⟩
    trace := machine.trace.note record machine.registers }

/-- The machine when the instruction that it has carried out is counted. The count wraps around. -/
def counted (machine : Machine) : Machine :=
  { machine with
    core := ⟨{ machine.registers with instructions := machine.registers.instructions + 1 },
      machine.bus⟩ }

/-- A step whose record can be read executes it and counts it after that. -/
theorem step_of_decodeAt {table : DispatchTable} {machine : Machine} {record : Record}
    (read : table.decodeAt machine.bus machine.registers.fullPc machine.registers.widths =
      .ok record) :
    step table machine =
      match execute record.instruction record.operands (machine.about record) with
      | .ok _ next => .ok record next.counted
      | .error failure next => .error failure next := by
  obtain ⟨⟨r, bus⟩, hooks, control, log, trace⟩ := machine
  have fetched : fetch table ⟨⟨r, bus⟩, hooks, control, log, trace⟩ =
      .ok record ⟨⟨r, bus⟩, hooks, control, log, trace⟩ := by
    have here : table.decodeAt bus r.fullPc r.widths = .ok record := read
    simp only [fetch, onCore, Exec.ask, Action.look, here]
  simp only [step, Action.bind_apply, fetched, note, alter, onCore, Exec.alter, about, registers,
    Machine.bus]
  generalize execute record.instruction record.operands _ = outcome
  cases outcome <;> rfl

/-- A step that cannot read an instruction changes nothing. -/
theorem step_of_decodeAt_error {table : DispatchTable} {machine : Machine} {fault : Fault}
    (read : table.decodeAt machine.bus machine.registers.fullPc machine.registers.widths =
      .error fault) : step table machine = .error (.fault fault) machine := by
  obtain ⟨⟨r, bus⟩, hooks, control, log, trace⟩ := machine
  have here : table.decodeAt bus r.fullPc r.widths = .error fault := read
  simp only [step, Action.bind_apply, fetch, onCore, Exec.ask, Action.look, here]

/-- A step that succeeds has read its record and executed it. -/
theorem exists_executed_of_step {table : DispatchTable} {machine next : Machine} {record : Record}
    (h : step table machine = .ok record next) :
    table.decodeAt machine.bus machine.registers.fullPc machine.registers.widths = .ok record ∧
      ∃ executed, execute record.instruction record.operands (machine.about record) =
        .ok () executed ∧ next = executed.counted := by
  cases read : table.decodeAt machine.bus machine.registers.fullPc machine.registers.widths with
  | error fault =>
    rw [step_of_decodeAt_error read] at h
    cases h
  | ok found =>
    rw [step_of_decodeAt read] at h
    cases outcome : execute found.instruction found.operands (machine.about found) with
    | ok _ executed =>
      rw [outcome] at h
      cases h
      exact ⟨rfl, executed, outcome, rfl⟩
    | error failure last =>
      rw [outcome] at h
      cases h

end W65C816.Machine
