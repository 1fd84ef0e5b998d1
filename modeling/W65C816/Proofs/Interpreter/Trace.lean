import Mathlib.Data.List.DropRight
import W65C816.Proofs.Interpreter.Events
import W65C816.Proofs.Program.Encoding

/-!
# The trace is the end of the execution

A trace keeps the last of the instructions that were noted. `Machine.noted?` says what is noted of
an attempt, which is nothing if no instruction can be read, and `Trace.Buffer.Recorded` that a
buffer has taken up a list of entries and forgotten what does not fit. `Machine.Proceeds.recorded`
says it of all ways of a machine.

`Event.Linked` is about what lies between two attempts in one call: the earlier instruction was
carried out, and the later one finds the registers as it has left them.
-/

set_option autoImplicit false

namespace W65C816

/-! ## Lists that are cut at the front -/

/-- Of what is appended later, the last entries are the same whether the first ones were cut off
before or not. -/
theorem rtake_rtake_append {α : Type} (count : Nat) (first rest : List α) :
    (first.rtake count ++ rest).rtake count = (first ++ rest).rtake count := by
  simp only [List.rtake_eq_reverse_take_reverse, List.reverse_append, List.reverse_reverse,
    List.take_append, List.take_take]
  congr 3
  omega

/-- The last entries of a list that is short enough are all of them. -/
theorem rtake_of_length_le {α : Type} {count : Nat} {list : List α} (h : list.length ≤ count) :
    list.rtake count = list := by
  rw [List.rtake, Nat.sub_eq_zero_of_le h, List.drop_zero]

namespace Trace.Buffer

/-- The buffer has taken up the entries, and has forgotten what is too much for it. -/
structure Recorded (entries : List Entry) (buffer next : Buffer) : Prop where
  capacity : next.capacity = buffer.capacity
  toList : next.toList = (buffer.toList ++ entries).rtake buffer.capacity

/-- Recording nothing leaves a buffer as it is. -/
theorem recorded_nil (buffer : Buffer) : Recorded [] buffer buffer := by
  refine ⟨rfl, ?_⟩
  rw [List.append_nil, rtake_of_length_le]
  exact buffer.length_toList.trans_le buffer.size_le_capacity

/-- Entries that are recorded one after the other are recorded together. -/
theorem Recorded.trans {entries more : List Entry} {buffer next last : Buffer}
    (h : Recorded entries buffer next) (h' : Recorded more next last) :
    Recorded (entries ++ more) buffer last := by
  refine ⟨h'.capacity.trans h.capacity, ?_⟩
  rw [h'.toList, h.capacity, h.toList, rtake_rtake_append, List.append_assoc]

/-- A buffer that keeps nothing at all is not pushed to, and that makes no difference. -/
theorem recorded_push (buffer : Buffer) (entry : Entry) :
    Recorded [entry] buffer (if buffer.isEnabled then buffer.push entry else buffer) := by
  cases enabled : buffer.isEnabled with
  | true =>
    refine ⟨capacity_push buffer entry, ?_⟩
    rw [if_pos rfl, toList_push, List.rtake, List.length_append, length_toList]
    rfl
  | false =>
    have none : buffer.capacity = 0 := by
      simpa [isEnabled] using enabled
    have empty : buffer.toList.length = 0 := by
      have bound := buffer.size_le_capacity
      rw [length_toList]
      omega
    refine ⟨rfl, ?_⟩
    rw [if_neg Bool.false_ne_true, none, List.rtake_zero]
    exact List.length_eq_zero_iff.mp empty

end Trace.Buffer

namespace Machine

/-! ## What is noted -/

/-- What is noted of the next instruction when it is attempted: nothing, if it cannot be read. -/
def noted? (table : DispatchTable) (machine : Machine) : Option Trace.Entry :=
  match table.decodeAt machine.bus machine.registers.fullPc machine.registers.widths with
  | .ok record => some (.ofRecord record machine.registers)
  | .error _ => none

/-- The instruction of the earlier machine was carried out, and the registers are as it has left
them. -/
def LeftBy (table : DispatchTable) (earlier machine : Machine) : Prop :=
  ∃ record next, step table earlier = .ok record next ∧
    machine.registers.snapshot = next.registers.snapshot

/-- A hook does not write to the trace. -/
theorem trace_invoke (index : Nat) (sighting : Sighting) (machine : Machine) :
    (Action.stateAfter (invoke index sighting machine)).trace = machine.trace := by
  obtain ⟨core, hooks, control, log, trace⟩ := machine
  simp only [invoke]
  cases hooks.get? index with
  | none => rfl
  | some hook =>
    by_cases panics : (hook.react (hook.calls + 1) sighting).panic = true
    · simp only [respond, if_pos panics]
      rfl
    · simp only [respond, if_neg panics]
      rfl

/-- Executing an instruction notes nothing. -/
theorem trace_execute (instruction : Instruction) (operands : Operands) (machine : Machine) :
    (Action.stateAfter (execute instruction operands machine)).trace = machine.trace := by
  unfold execute
  split
  · rw [callHook_eq, Action.bind_apply]
    split
    · rfl
    · have same := trace_invoke ((Address.low operands.first).toNat - 1)
        { slot := Address.low operands.first, instruction, registers := machine.registers } machine
      split <;> next outcome =>
        rw [outcome] at same
        exact same
  · obtain ⟨core, hooks, control, log, trace⟩ := machine
    simp only [onCore]
    cases instruction.execute operands core <;> rfl

/-- An attempt notes its instruction before it is executed, so also if it fails then. -/
theorem recorded_step (table : DispatchTable) (machine : Machine) :
    Trace.Buffer.Recorded (machine.noted? table).toList machine.trace.buffer
      (Action.stateAfter (step table machine)).trace.buffer := by
  unfold noted?
  cases read : table.decodeAt machine.bus machine.registers.fullPc machine.registers.widths with
  | error fault =>
    rw [step_of_decodeAt_error read]
    exact machine.trace.buffer.recorded_nil
  | ok record =>
    have same := trace_execute record.instruction record.operands (machine.about record)
    have noted := machine.trace.buffer.recorded_push (.ofRecord record machine.registers)
    change Trace.Buffer.Recorded _ _ (machine.about record).trace.buffer at noted
    rw [← same] at noted
    rw [step_of_decodeAt read]
    generalize execute record.instruction record.operands (machine.about record) = outcome at noted
    cases outcome <;> exact noted

end Machine

namespace Event

/-- What is noted of an event, which has to be an attempt. -/
def noted? (table : DispatchTable) : Event → Option Trace.Entry
  | .attempt machine => machine.noted? table
  | .once | .run | .request | .seen _ => none

/-- Another instruction is attempted, or another call begins. -/
def Supersedes (event : Event) : Prop :=
  BeginsCall event ∨ ∃ machine, event = .attempt machine

/-- An attempt comes upon the registers as the instruction attempted before it has left them, if
that was attempted in the same call. -/
def Linked (table : DispatchTable) (past : List Event) (event : Event) : Prop :=
  ∀ earlier machine, event = .attempt machine → Standing Supersedes (.attempt earlier) past →
    Machine.LeftBy table earlier machine

variable {table : DispatchTable} {past : List Event} {machine earlier : Machine}

/-- The events of a step say which record it notes. -/
theorem filterMap_stepEvents :
    (machine.stepEvents table).filterMap (noted? table) = (machine.noted? table).toList := by
  rw [Machine.stepEvents, List.filterMap_cons]
  cases machine.asksToCancel table <;> simp only [noted?] <;>
    cases machine.noted? table <;> rfl

end Event

namespace Machine

open Event

variable {table : DispatchTable} {machine next : Machine} {events past : List Event}

/-! ## All ways of a machine -/

/-- The trace takes up what is noted, and forgets what is too much for it. -/
theorem Proceeds.recorded (h : Proceeds table events machine next) :
    Trace.Buffer.Recorded (events.filterMap (Event.noted? table)) machine.trace.buffer
      next.trace.buffer := by
  induction h with
  | rests machine | asks machine | requests machine | equips machine bus hooks | resumes machine
  | releases machine | begins idle start => exact Trace.Buffer.recorded_nil _
  | trans h h' ih ih' =>
    rw [List.filterMap_append]
    exact ih.trans ih'
  | calls idle start =>
    rw [List.filterMap_cons, filterMap_stepEvents]
    exact recorded_step table _
  | continues running unasked succeeds =>
    rw [filterMap_stepEvents]
    exact recorded_step table _
  | fails running unasked failed =>
    rw [filterMap_stepEvents]
    exact recorded_step table _

/-- A call that goes on is left by what it attempted last. -/
def Linked (table : DispatchTable) (past : List Event) (machine : Machine) : Prop :=
  machine.control.running = true → ∀ earlier, Standing Supersedes (.attempt earlier) past →
    Machine.LeftBy table earlier machine

/-- Something that is neither an attempt nor the beginning of a call, and leaves the registers
alone. -/
theorem Linked.concat (h : Linked table past machine) {event : Event}
    (quiet : ∀ earlier, event ≠ .attempt earlier)
    (running : next.control.running = machine.control.running)
    (registers : next.registers = machine.registers) : Linked table (past ++ [event]) next := by
  intro active earlier attempted
  have before := (standing_concat.mp attempted).resolve_left (quiet earlier)
  unfold LeftBy
  rw [registers]
  exact h (running ▸ active) earlier before.1

end Machine

namespace Interpreter

open Event

/-- The first three of these instructions can be read and fail, and the last one cannot be read. A
trace of two entries holds the second and the third. -/
example :
    let table : DispatchTable :=
      { registry := [], admissible := ⟨by decide, by decide⟩
        entries := .ofFn fun i => Registry.entry [] (.ofNat i), entries_eq := rfl }
    let created := create ⟨{}, .flat (.whole Memory.least)⟩ table { history := 2 }
    let requests : List Request :=
      [.runOnce none, .runOnce none, .run none (fun _ => false) 5, .runOnce (some 0x1000)]
    (Request.performAll requests created).machine.trace.buffer.toList.map Trace.Entry.offset =
      [1, 2] := by
  decide +kernel

end Interpreter

end W65C816
