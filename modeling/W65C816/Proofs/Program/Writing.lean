import Mathlib.Data.List.Forall2
import W65C816.Proofs.Program.Encoding

/-!
# Programs are read back as they were written

Instructions are written one behind another onto a flat view and read back from the beginning. What
was written later lies behind what was written before, so the view holds the bytes of every
instruction in the end, and each is read where its predecessor ends. A constant has to be read at
the width that it was written at; nothing else that was written hangs on the widths.
-/

set_option autoImplicit false

namespace W65C816

open Addressing

namespace DispatchTable

/-! ## Writing and reading in a row -/

/-- Writes one instruction behind another, from an offset on, and yields the offset behind each. -/
def writeAll (table : DispatchTable) : UInt32 → List WriteRequest → EStateM Fault Bus (List UInt32)
  | _, [] => pure []
  | offset, request :: rest => do
    let next ← table.write offset request
    let later ← table.writeAll next rest
    pure (next :: later)

/-- Reads one instruction behind another, from an offset on, each under widths of its own. -/
def readAll (table : DispatchTable) (bus : Bus) : UInt32 → List Widths → Except Fault (List Record)
  | _, [] => pure []
  | offset, widths :: rest => do
    let record ← table.decodeAt bus offset widths
    let later ← table.readAll bus record.next rest
    pure (record :: later)

/-- If the instruction of the request has a constant, the widths read it at the width that it is
written at. -/
def ReadsWidth (table : DispatchTable) (request : WriteRequest) (widths : Widths) : Prop :=
  ∀ instruction, table.lookup request.opcode request.mode = .ok instruction →
    instruction.mode = .immediate →
      instruction.opcode.immediateLength? widths = some request.width.length

/-- The record is what the request asks for: the instruction that the encoder looks up, with the
first operand cut to the width of the operand and without a second one, or with both banks of a
block move. -/
structure ReadsBack (table : DispatchTable) (request : WriteRequest) (record : Record) : Prop where
  instruction : table.lookup request.opcode request.mode = .ok record.instruction
  length : record.operands.length =
    record.instruction.mode.operandLength?.getD request.width.length
  number : record.instruction.mode ≠ .blockMove →
    record.operands.first = lowBytes request.first record.operands.length ∧
      record.operands.second = 0
  banks : record.instruction.mode = .blockMove →
    record.operands.first = lowBytes request.first 1 ∧
      record.operands.second = lowBytes request.second 1

/-! ## One instruction -/

variable {table : DispatchTable} {view : View} {offset next : UInt32} {bus : Bus}

/-- There are bytes for a request if the table has its instruction and the width fits. -/
theorem bytesFor_eq_ok_iff (table : DispatchTable) (request : WriteRequest) (bytes : List UInt8) :
    table.bytesFor request = .ok bytes ↔
      ∃ instruction, table.lookup request.opcode request.mode = .ok instruction ∧
        instruction.fits request.width = true ∧
        bytes = instruction.encode request.width request.first request.second := by
  unfold bytesFor
  constructor
  · intro h
    cases found : table.lookup request.opcode request.mode with
    | error fault =>
      rw [found] at h
      cases h
    | ok instruction =>
      rw [found] at h
      by_cases fits : instruction.fits request.width = true
      · simp only [fits, if_true] at h
        exact ⟨instruction, rfl, fits, (Except.ok.inj h).symm⟩
      · simp only [fits] at h
        cases h
  · rintro ⟨instruction, found, fits, rfl⟩
    rw [found]
    simp only [fits, if_true]

/-- An instruction is written onto a flat view when it is found, its operands fit it and its bytes
fit the view. -/
theorem write_flat_eq_ok_iff (table : DispatchTable) (request : WriteRequest) :
    table.write offset request (.flat view) = .ok next bus ↔
      ∃ instruction, table.lookup request.opcode request.mode = .ok instruction ∧
        instruction.fits request.width = true ∧
        let bytes := instruction.encode request.width request.first request.second
        offset.toNat + bytes.length ≤ view.length ∧
          bus = .flat (view.setAll (view.start + offset.toNat) bytes) ∧
          next = offset + UInt32.ofNat bytes.length := by
  unfold write
  constructor
  · intro h
    cases hbytes : table.bytesFor request with
    | error fault =>
      rw [hbytes] at h
      cases h
    | ok bytes =>
      obtain ⟨instruction, found, fits, rfl⟩ := (bytesFor_eq_ok_iff table request bytes).mp hbytes
      rw [hbytes] at h
      cases hblock : Bus.writeBlock offset
          (instruction.encode request.width request.first request.second) (.flat view) with
      | error fault after =>
        simp only [hblock] at h
        cases h
      | ok _ after =>
        simp only [hblock] at h
        injection h with hnext hbus
        obtain ⟨room, hafter⟩ := (Bus.writeBlock_flat_eq_ok_iff view offset
          (Instruction.encode_ne_nil _ _ _ _) after).mp hblock
        exact ⟨instruction, found, fits, room, hbus ▸ hafter, hnext.symm⟩
  · rintro ⟨instruction, found, fits, room, rfl, rfl⟩
    have hbytes := (bytesFor_eq_ok_iff table request _).mpr
      ⟨instruction, found, fits, rfl⟩
    have hblock := (Bus.writeBlock_flat_eq_ok_iff view offset
      (instruction.encode_ne_nil _ _ _) _).mpr ⟨room, rfl⟩
    rw [hbytes]
    simp only [hblock]

/-- The operands of a written instruction are read back at the length that they were written at. -/
theorem operandLength_eq {request : WriteRequest} {instruction : Instruction} {widths : Widths}
    (found : table.lookup request.opcode request.mode = .ok instruction)
    (reads : table.ReadsWidth request widths) :
    instruction.operandLength widths = .ok
      (instruction.operandsFor request.width request.first request.second).length := by
  unfold Instruction.operandLength Instruction.operandsFor
  rw [if_pos (valid_of_mem (mem_of_lookup found))]
  cases fixed : instruction.mode.operandLength? with
  | some length => rfl
  | none =>
    have constant : instruction.mode = .immediate := by
      cases hmode : instruction.mode <;> rw [hmode] at fixed <;> first | rfl | cases fixed
    have hlength := reads instruction found constant
    simp only [hlength, Option.getD_none]

/-- Where the view holds the bytes of a request, they are read as its instruction. -/
theorem decodeAt_of_holds {request : WriteRequest} {instruction : Instruction} {widths : Widths}
    (found : table.lookup request.opcode request.mode = .ok instruction)
    (reads : table.ReadsWidth request widths)
    (holds : view.Holds offset.toNat
      (instruction.encode request.width request.first request.second)) :
    ∃ record, table.decodeAt (.flat view) offset widths = .ok record ∧
      table.ReadsBack request record ∧
      record.next = offset + UInt32.ofNat
        (instruction.encode request.width request.first request.second).length := by
  have member := mem_of_lookup found
  have valid := valid_of_mem member
  have hlength := operandLength_eq found reads
  let operands := instruction.reduce
    (instruction.operandsFor request.width request.first request.second)
  have same : operands.length =
      (instruction.operandsFor request.width request.first request.second).length := by
    simp only [operands, Instruction.reduce]
    split <;> rfl
  rw [Instruction.encode_eq, ← Instruction.operandBytes_reduce hlength] at holds
  have hread := (decodeAt_flat_eq_ok_iff table view offset widths
    { offset, instruction, operands } valid).mpr
    ⟨rfl, get_of_mem member, same ▸ hlength, Instruction.reduce_reduce _ _, holds⟩
  refine ⟨_, hread, ⟨found, same, ?_, ?_⟩, ?_⟩
  · intro single
    have cut : operands = _ := if_neg single
    rw [cut]
    exact ⟨rfl, rfl⟩
  · intro move
    have cut : operands = _ := if_pos move
    rw [cut]
    exact ⟨rfl, rfl⟩
  · rw [Record.next, Record.length, same, Instruction.encode_eq, List.length_cons,
      Instruction.length_operandBytes valid hlength, Nat.add_comm]

/-! ## Programs -/

variable {requests : List WriteRequest} {offsets : List UInt32}

/-- A program is written when its first instruction is and the rest behind it. -/
theorem writeAll_cons_flat_eq_ok_iff (request : WriteRequest) (rest : List WriteRequest) :
    table.writeAll offset (request :: rest) (.flat view) = .ok offsets bus ↔
      ∃ instruction, table.lookup request.opcode request.mode = .ok instruction ∧
        instruction.fits request.width = true ∧
        let bytes := instruction.encode request.width request.first request.second
        let next := offset + UInt32.ofNat bytes.length
        offset.toNat + bytes.length ≤ view.length ∧
          ∃ later, table.writeAll next rest
              (.flat (view.setAll (view.start + offset.toNat) bytes)) = .ok later bus ∧
            offsets = next :: later := by
  rw [writeAll, Action.bind_apply]
  constructor
  · intro h
    cases hwrite : table.write offset request (.flat view) with
    | error fault after =>
      rw [hwrite] at h
      cases h
    | ok next after =>
      obtain ⟨instruction, found, fits, room, rfl, rfl⟩ :=
        (write_flat_eq_ok_iff table request).mp hwrite
      rw [hwrite] at h
      simp only [Action.bind_apply] at h
      refine ⟨instruction, found, fits, room, ?_⟩
      split at h
      · next later last hlater =>
        injection h with hoffsets hbus
        exact ⟨later, hbus ▸ hlater, hoffsets.symm⟩
      · cases h
  · rintro ⟨instruction, found, fits, room, later, hlater, rfl⟩
    have hwrite := (write_flat_eq_ok_iff table request).mpr
      ⟨instruction, found, fits, room, rfl, rfl⟩
    rw [hwrite]
    simp only [Action.bind_apply, hlater]
    rfl

/-- A program can be written when its first instruction can and the rest can be behind it, whatever
the view holds by then. -/
theorem exists_writeAll_cons {request : WriteRequest} {rest : List WriteRequest}
    {instruction : Instruction}
    (found : table.lookup request.opcode request.mode = .ok instruction)
    (fits : instruction.fits request.width = true)
    (room : offset.toNat +
      (instruction.encode request.width request.first request.second).length ≤ view.length)
    (more : ∀ after : View, after.length = view.length → ∃ later bus,
      table.writeAll (offset + UInt32.ofNat
        (instruction.encode request.width request.first request.second).length) rest
        (.flat after) = .ok later bus) :
    ∃ offsets bus, table.writeAll offset (request :: rest) (.flat view) = .ok offsets bus := by
  obtain ⟨later, bus, hlater⟩ := more (view.setAll (view.start + offset.toNat)
    (instruction.encode request.width request.first request.second)) rfl
  exact ⟨_, bus, (writeAll_cons_flat_eq_ok_iff request rest).mpr
    ⟨instruction, found, fits, room, later, hlater, rfl⟩⟩

/-- Writing a program changes nothing in front of it. -/
theorem writeAll_keeps (h : table.writeAll offset requests (.flat view) = .ok offsets bus) :
    ∃ written, bus = .flat written ∧ written.length = view.length ∧
      ∀ i < offset.toNat, written.byteAt i = view.byteAt i := by
  induction requests generalizing offset view offsets with
  | nil =>
    cases h
    exact ⟨view, rfl, rfl, fun _ _ => rfl⟩
  | cons request rest ih =>
    obtain ⟨instruction, -, -, room, later, hlater, -⟩ :=
      (writeAll_cons_flat_eq_ok_iff request rest).mp h
    obtain ⟨written, rfl, hlength, same⟩ := ih hlater
    refine ⟨written, rfl, hlength, fun i before => ?_⟩
    have behind := View.toNat_add_ofNat room
    rw [same i (by omega), View.byteAt_setAll_of_outside (.inl before)]

/-- What is decoded is what was encoded. When a program is written from an offset on, reading it
from there, each constant at its written width, yields the instructions that the encoder looked up
with their operands cut to size, and the reader stands behind each instruction where the writer
stood. -/
theorem readAll_of_writeAll (table : DispatchTable) (view : View) (start : UInt32)
    (requests : List WriteRequest) (contexts : List Widths) (offsets : List UInt32) (bus : Bus)
    (written : table.writeAll start requests (.flat view) = .ok offsets bus)
    (reads : List.Forall₂ table.ReadsWidth requests contexts) :
    ∃ records, table.readAll bus start contexts = .ok records ∧
      List.Forall₂ table.ReadsBack requests records ∧ records.map Record.next = offsets := by
  induction requests generalizing start view contexts offsets with
  | nil =>
    cases reads
    cases written
    exact ⟨[], rfl, .nil, rfl⟩
  | cons request rest ih =>
    obtain _ | ⟨hwidths, reads⟩ := reads
    obtain ⟨instruction, found, fits, room, later, hlater, rfl⟩ :=
      (writeAll_cons_flat_eq_ok_iff request rest).mp written
    obtain ⟨final, rfl, hlength, same⟩ := writeAll_keeps hlater
    -- The first instruction lies in front of the rest, so it is still there in the end.
    have behind := View.toNat_add_ofNat room
    have longer : view.length ≤ final.length := Nat.le_of_eq hlength.symm
    have holds := (View.holds_setAll room).frame longer fun i _ inside => same i (by omega)
    obtain ⟨record, hread, back, hnext⟩ := decodeAt_of_holds found hwidths holds
    obtain ⟨records, hrecords, backs, hoffsets⟩ := ih _ _ _ _ hlater reads
    refine ⟨record :: records, ?_, .cons back backs, ?_⟩
    · rw [readAll, hread]
      simp only [bind, Except.bind, hnext, hrecords, pure, Except.pure]
    · rw [List.map_cons, hnext, hoffsets]

/-- A constant of two bytes and a block move, written onto the smallest memory by a table of two
instructions. -/
theorem readAll_of_writeAll_move :
    let registry : Registry := [⟨0xA9, .lda, .immediate⟩, ⟨0x54, .mvn, .blockMove⟩]
    let view := View.whole Memory.least
    let requests : List WriteRequest :=
      [{ opcode := .lda, mode := .immediate, width := .word, first := 0x12345 },
       { opcode := .mvn, mode := .blockMove, width := .word, first := 0x7E, second := 0x7F }]
    let contexts : List Widths := [{ memory := .word }, {}]
    ∃ (table : DispatchTable) (offsets : List UInt32) (bus : Bus), table.registry = registry ∧
      table.writeAll 0x10 requests (.flat view) = .ok offsets bus ∧
      List.Forall₂ table.ReadsWidth requests contexts ∧
      ∃ records, table.readAll bus 0x10 contexts = .ok records ∧
        List.Forall₂ table.ReadsBack requests records ∧ records.map Record.next = offsets := by
  intro registry view requests contexts
  let table : DispatchTable :=
    { registry
      admissible := by simp [registry, Registry.Admissible, Instruction.isValid]
      entries := Vector.ofFn fun i => registry.entry (UInt8.ofNat i)
      entries_eq := rfl }
  have load : table.lookup .lda .immediate = .ok ⟨0xA9, .lda, .immediate⟩ := by
    rw [lookup, find?_eq]
    rfl
  have move : table.lookup .mvn .blockMove = .ok ⟨0x54, .mvn, .blockMove⟩ := by
    rw [lookup, find?_eq]
    rfl
  have hlength : view.length = 0x200 := Memory.size_least
  have written : ∃ offsets bus, table.writeAll 0x10 requests (.flat view) = .ok offsets bus := by
    refine exists_writeAll_cons load rfl ?_ fun after same => ?_
    · rw [hlength]
      decide
    · refine exists_writeAll_cons move rfl ?_ fun _ _ => ⟨_, _, rfl⟩
      rw [same, hlength]
      decide
  obtain ⟨offsets, bus, written⟩ := written
  have reads : List.Forall₂ table.ReadsWidth requests contexts := by
    refine .cons ?_ (.cons ?_ .nil)
    · intro instruction found _
      cases load.symm.trans found
      rfl
    · intro instruction found constant
      cases move.symm.trans found
      cases constant
  exact ⟨table, offsets, bus, rfl, written, reads,
    readAll_of_writeAll table view 0x10 requests contexts offsets bus written reads⟩

end DispatchTable

end W65C816
