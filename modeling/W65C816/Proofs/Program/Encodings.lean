import W65C816.Proofs.Memory.ByteMemory
import W65C816.Proofs.Program.Fetching

/-!
# What a record was read from

Wherever an instruction is read, on a flat bus or on a banked one, the bus holds its bytes there,
and its operands are no more than what these bytes say: `DispatchTable.ReadFrom`. So an encoding of
as many bytes as the record takes up is `Record.bytes`.
-/

set_option autoImplicit false

namespace W65C816

open Addressing

variable {bus : Bus} {position : UInt32} {widths : Widths}

/-! ## Numbers -/

/-- A row is known by where it lies and how long it is. -/
theorem Bus.Holds.unique {row other : List UInt8} (h : bus.Holds position row)
    (h' : bus.Holds position other) (same : row.length = other.length) : row = other := by
  induction row generalizing position other with
  | nil => exact (List.length_eq_zero_iff.mp same.symm).symm
  | cons value rest ih =>
    cases other with
    | nil => cases same
    | cons value' rest' =>
      have first : value = value' := Except.ok.inj (h.1.symm.trans h'.1)
      rw [first, ih h.2 h'.2 (Nat.succ.inj same)]

/-- A number of three bytes is read with no more than these bytes. -/
theorem Bus.wrap_of_read24 {value : UInt32} (read : bus.read24 position = .ok value) :
    Address.wrap value = value := by
  obtain ⟨fits, holds⟩ := Format.faithful_long.holds (Nat.succ_pos 2) read
  have again : bus.read24 position = .ok (Address.wrap value) :=
    Format.faithful_long.read fits holds
  exact Except.ok.inj (again.symm.trans read)

/-- Where a number is read its bytes are, and it is no more than what they say. -/
theorem Bus.holds_of_readNumber {value : UInt32} {length : Nat} (short : length ≤ 3)
    (read : bus.readNumber position length = .ok value) :
    lowBytes value length = value ∧ bus.Holds position (littleEndian value length) := by
  rcases length with _ | _ | _ | _ | _
  · exact ⟨Except.ok.inj read, trivial⟩
  · obtain ⟨byte, found, rfl⟩ := (bind_pure_eq_ok_iff (bus.read8 position) _ value).mp read
    have holds := (Format.faithful_byte.holds Nat.one_pos found).2
    change lowBytes byte.toUInt32 1 = _ ∧ bus.Holds position [Address.low byte.toUInt32]
    rw [← toUInt32_low, low_toUInt32]
    exact ⟨rfl, holds⟩
  · obtain ⟨word, found, rfl⟩ := (bind_pure_eq_ok_iff (bus.read16 position) _ value).mp read
    have holds := (Format.faithful_word.holds Nat.two_pos found).2
    change lowBytes word.toUInt32 2 = _ ∧ bus.Holds position
      [Word.low (Address.offset word.toUInt32), Word.high (Address.offset word.toUInt32)]
    rw [← toUInt32_offset, offset_toUInt32]
    exact ⟨rfl, holds⟩
  · have holds := (Format.faithful_long.holds (Nat.succ_pos 2) read).2
    exact ⟨wrap_of_read24 read, holds⟩
  · omega

/-! ## Instructions -/

namespace Instruction

variable {instruction : Instruction} {operands : Operands}

/-- Where a block move is read its two banks are. -/
theorem holds_of_decode_blockMove (move : instruction.mode = .blockMove)
    (h : instruction.operandLength widths = .ok 2)
    (read : instruction.decode bus position widths = .ok operands) :
    lowBytes operands.first 1 = operands.first ∧ lowBytes operands.second 1 = operands.second ∧
      bus.Holds position [Address.low operands.second, Address.low operands.first] := by
  have decoded : instruction.decode bus position widths =
      (bus.check position 2 >>= fun _ => bus.read8 position >>= fun destination =>
        bus.read8 (position + 1) >>= fun source =>
          pure { first := source.toUInt32, second := destination.toUInt32, length := 2 }) := by
    unfold decode
    rw [h, move]
    rfl
  rw [decoded] at read
  cases checked : bus.check position 2 with
  | error fault => simp [checked, bind, Except.bind] at read
  | ok _ =>
    cases first : bus.read8 position with
    | error fault => simp [checked, first, bind, Except.bind] at read
    | ok destination =>
      cases second : bus.read8 (position + 1) with
      | error fault => simp [checked, first, second, bind, Except.bind] at read
      | ok source =>
        simp only [checked, first, second, bind, Except.bind, pure, Except.pure,
          Except.ok.injEq] at read
        subst read
        refine ⟨?_, ?_, ?_⟩
        · rw [← toUInt32_low, low_toUInt32]
        · rw [← toUInt32_low, low_toUInt32]
        · rw [low_toUInt32, low_toUInt32]
          exact ⟨first, second, trivial⟩

/-- Where operands are read their bytes are, and they are no more than what these say. -/
theorem holds_of_decode (valid : instruction.isValid = true)
    (read : instruction.decode bus position widths = .ok operands) :
    instruction.reduce operands = operands ∧
      bus.Holds position (instruction.operandBytes operands) := by
  have known := operandLength_of_decode read
  unfold reduce operandBytes
  by_cases move : instruction.mode = .blockMove
  · have two := length_blockMove valid move known
    rw [two] at known
    obtain ⟨first, second, holds⟩ := holds_of_decode_blockMove move known read
    rw [if_pos move, if_pos move, first, second]
    exact ⟨rfl, holds⟩
  · obtain ⟨first, second, length⟩ := operands
    rw [if_neg move, if_neg move]
    rw [decode_number move known, bind_pure_eq_ok_iff] at read
    obtain ⟨number, found, same⟩ := read
    obtain ⟨small, holds⟩ := Bus.holds_of_readNumber (operandLength_le known) found
    cases same
    exact ⟨by rw [small], holds⟩

end Instruction

/-! ## Records -/

namespace DispatchTable

variable {table : DispatchTable} {offset : UInt32} {record : Record}

/-- The record is what its bytes on the bus say under the widths. -/
structure ReadFrom (table : DispatchTable) (record : Record) (widths : Widths) (bus : Bus) :
    Prop where
  entry : table.get record.instruction.code = record.instruction
  length : record.instruction.operandLength widths = .ok record.operands.length
  reduced : record.instruction.reduce record.operands = record.operands
  holds : bus.Holds record.offset record.bytes

/-- On every bus an instruction is read from its bytes. -/
theorem readFrom_of_decodeAt (read : table.decodeAt bus offset widths = .ok record)
    (valid : record.instruction.isValid = true) :
    record.offset = offset ∧ table.ReadFrom record widths bus := by
  have byte := read8_of_decodeAt read
  have same := instruction_of_decodeAt byte read
  have here := (offset_of_decodeAt read).1
  have decoded : record.instruction.decode bus (offset + 1) widths = .ok record.operands := by
    simp only [decodeAt, byte, bind, Except.bind, pure, Except.pure] at read
    split at read
    · cases read
    · next operands decoded =>
      have known : operands = record.operands := congrArg Record.operands (Except.ok.inj read)
      rw [← same, known] at decoded
      exact decoded
  obtain ⟨reduced, holds⟩ := Instruction.holds_of_decode valid decoded
  refine ⟨here, same.symm, Instruction.operandLength_of_decode decoded, reduced, ?_⟩
  rw [Record.bytes, if_pos valid, here]
  exact ⟨byte, holds⟩

/-- The bytes of a record are as many as it takes up. -/
theorem ReadFrom.length_bytes (h : table.ReadFrom record widths bus)
    (valid : record.instruction.isValid = true) : record.bytes.length = record.length := by
  rw [Record.bytes, if_pos valid, List.length_cons,
    Instruction.length_operandBytes valid h.length, Record.length, Nat.add_comm]

/-- The row of bytes is an encoding: it lies on some bus, and is read there under the widths as the
record, from its first byte to its last. -/
def Encodes (table : DispatchTable) (bytes : List UInt8) (widths : Widths) (record : Record) :
    Prop :=
  ∃ bus offset, bus.Holds offset bytes ∧ table.decodeAt bus offset widths = .ok record ∧
    record.length = bytes.length

/-- An encoding consists of the bytes of the record. -/
theorem Encodes.bytes_eq {bytes : List UInt8} (h : table.Encodes bytes widths record)
    (valid : record.instruction.isValid = true) : bytes = record.bytes := by
  obtain ⟨bus, offset, holds, read, length⟩ := h
  obtain ⟨rfl, readFrom⟩ := readFrom_of_decodeAt read valid
  refine holds.unique readFrom.holds ?_
  rw [readFrom.length_bytes valid, length]

end DispatchTable

end W65C816
