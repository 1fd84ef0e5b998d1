import W65C816.Proofs.Memory.Banks
import W65C816.Proofs.Memory.Faults

/-!
# Fetching an instruction

A step reads its instruction from the address of the program counter on, position by position, and
the program counter moves on within its bank. As long as the instruction ends in the bank where it
begins, these are the same positions: `DispatchTable.fetches_in_bank_iff`. An instruction that runs
over the end of its bank is read from the beginning of the next bank, while the program counter goes
back to the beginning of its own.

What a record is read from is `Record.bytes`. A record is read wherever these bytes are,
`DispatchTable.decodeAt_eq_ok_iff_holds`, so another byte behind the bank tells whether any of them
is fetched from there.
-/

set_option autoImplicit false

namespace W65C816

/-- The bytes that a record was read from. What stands in for an instruction is its leading byte. -/
def Record.bytes (record : Record) : List UInt8 :=
  record.instruction.code ::
    if record.instruction.isValid then record.instruction.operandBytes record.operands else []

/-- Views of one length with the same bytes in a bank. -/
structure View.SameBank (bank : UInt8) (view other : View) : Prop where
  length : other.length = view.length
  same : ∀ p < view.length, p / Address.bankSize = bank.toNat → other.byteAt p = view.byteAt p

/-- A byte that lies outside of a bank is none of the bank. -/
theorem View.sameBank_spoiled {bank : UInt8} {view : View} {position : Nat}
    (outside : position / Address.bankSize ≠ bank.toNat) :
    SameBank bank view (view.spoiled position) where
  length := view.length_spoiled position
  same := by
    intro p _ inside
    apply byteAt_spoiled_of_ne
    rintro rfl
    exact outside inside

/-! ## Records and their bytes -/

namespace DispatchTable

variable {table : DispatchTable} {view other : View} {offset : UInt32} {widths : Widths}
  {record : Record}

/-- A stand-in is read without operands where its leading byte is. -/
theorem decodeAt_of_standIn (view : View) {instruction : Instruction}
    (entry : table.get instruction.code = instruction) (standIn : ¬ instruction.isValid = true)
    (byte : view.read8 offset = .ok instruction.code) :
    table.decodeAt (.flat view) offset widths = .ok { offset, instruction, operands := {} } := by
  have none : instruction.operandLength widths = .ok 0 := by
    unfold Instruction.operandLength
    rw [if_neg standIn]
  have decoded : instruction.decode (.flat view) (offset + 1) widths = .ok {} := by
    unfold Instruction.decode
    rw [none]
    cases instruction.mode <;> rfl
  rw [decodeAt_flat, byte]
  change ((table.get instruction.code).decode (.flat view) (offset + 1) widths >>= _) = _
  rw [entry, decoded]
  rfl

/-- The code of a record leads to its instruction. -/
theorem get_of_decodeAt (read : table.decodeAt (.flat view) offset widths = .ok record) :
    table.get record.instruction.code = record.instruction := by
  obtain ⟨code, entry, -⟩ := exists_code_of_decodeAt read
  rw [entry, code_get]

/-- A record has as many bytes as it is long. -/
theorem length_bytes (read : table.decodeAt (.flat view) offset widths = .ok record) :
    record.bytes.length = record.length := by
  by_cases valid : record.instruction.isValid = true
  · obtain ⟨-, -, length, -⟩ :=
      (decodeAt_flat_eq_ok_iff table view offset widths record valid).mp read
    rw [Record.bytes, if_pos valid, List.length_cons, Instruction.length_operandBytes valid length,
      Record.length, Nat.add_comm]
  · have same : table.decodeAt (.flat view) offset widths = .ok _ :=
      decodeAt_of_standIn view (get_of_decodeAt read) valid (read8_of_decodeAt read)
    rw [read] at same
    rw [Record.bytes, if_neg valid, Except.ok.inj same]
    rfl

/-- What was read once is read again from every view that has the same bytes where it lies, and
from no other one. -/
theorem decodeAt_eq_ok_iff_holds (read : table.decodeAt (.flat view) offset widths = .ok record)
    (other : View) :
    table.decodeAt (.flat other) offset widths = .ok record ↔
      other.Holds offset.toNat record.bytes := by
  by_cases valid : record.instruction.isValid = true
  · obtain ⟨here, entry, length, reduced, -⟩ :=
      (decodeAt_flat_eq_ok_iff table view offset widths record valid).mp read
    rw [decodeAt_flat_eq_ok_iff table other offset widths record valid, Record.bytes, if_pos valid]
    exact ⟨fun again => again.2.2.2.2, fun holds => ⟨here, entry, length, reduced, holds⟩⟩
  · have entry := get_of_decodeAt read
    have same : table.decodeAt (.flat view) offset widths = .ok _ :=
      decodeAt_of_standIn view entry valid (read8_of_decodeAt read)
    rw [Record.bytes, if_neg valid, ← View.read8_eq_ok_iff]
    constructor
    · exact fun again => read8_of_decodeAt again
    · intro byte
      rw [decodeAt_of_standIn other entry valid byte, ← same, read]

/-- A record is read again from a view with the same bytes where it lies. -/
theorem decodeAt_frame (read : table.decodeAt (.flat view) offset widths = .ok record)
    (length : other.length = view.length)
    (same : ∀ p, offset.toNat ≤ p → p < offset.toNat + record.length →
      other.byteAt p = view.byteAt p) :
    table.decodeAt (.flat other) offset widths = .ok record := by
  have holds := (decodeAt_eq_ok_iff_holds read view).mp read
  apply (decodeAt_eq_ok_iff_holds read other).mpr
  refine holds.frame (Nat.le_of_eq length.symm) fun p first last => same p first ?_
  rwa [length_bytes read] at last

end DispatchTable

/-! ## The program counter -/

namespace Registers

/-- The program bank counts for 65536 times the program counter. -/
theorem toNat_fullPc (r : Registers) : r.fullPc.toNat = r.pb.toNat * 65536 + r.pc.toNat :=
  Address.toNat_ofBank r.pb r.pc

/-- The program counter moves on to the next positions exactly as long as they are in its bank. -/
theorem fullPc_advance_eq_iff (r : Registers) {length : Nat} (short : length ≤ 4) :
    (∀ i < length, (r.advance i).fullPc.toNat = r.fullPc.toNat + i) ↔
      r.pc.toNat + length ≤ Address.bankSize := by
  have bound := r.pc.toNat_lt
  have moved (i : Nat) : (r.advance i).fullPc.toNat =
      r.pb.toNat * 65536 + (r.pc.toNat + i) % 65536 := by
    rw [toNat_fullPc, advance, UInt16.toNat_add, UInt16.toNat_ofNat']
    simp
  simp only [moved, toNat_fullPc, Address.bankSize]
  constructor
  · intro same
    by_contra beyond
    have last := same (65536 - r.pc.toNat) (by omega)
    omega
  · intro fits i bound
    omega

end Registers

/-- A record that is read at the program counter is the same for all views with the same bytes in
its bank exactly if it ends there. -/
theorem DispatchTable.decodeAt_same_bank_iff {table : DispatchTable} {view : View} {r : Registers}
    {record : Record} (read : table.decodeAt (.flat view) r.fullPc r.widths = .ok record) :
    (∀ other, View.SameBank r.pb view other →
        table.decodeAt (.flat other) r.fullPc r.widths = .ok record) ↔
      r.pc.toNat + record.length ≤ Address.bankSize := by
  have holds := (decodeAt_eq_ok_iff_holds read view).mp read
  have length := length_bytes read
  obtain ⟨-, room, -⟩ := place_of_decodeAt read
  have place := r.toNat_fullPc
  have below := r.pc.toNat_lt
  constructor
  · intro same
    by_contra beyond
    rw [Address.bankSize] at beyond
    -- The byte of the instruction that would be the first of the next bank.
    obtain ⟨i, behind⟩ := Nat.exists_eq_add_of_le (Nat.le_of_lt below)
    have inside : i < record.bytes.length := by omega
    have outside : (r.fullPc.toNat + i) / Address.bankSize ≠ r.pb.toNat := by
      rw [Address.bankSize]
      omega
    have again := same _ (View.sameBank_spoiled outside)
    have holds' := (decodeAt_eq_ok_iff_holds read _).mp again
    apply @View.byteAt_spoiled_ne view (r.fullPc.toNat + i) (by omega)
    rw [holds'.byteAt inside, holds.byteAt inside]
  · intro fits other same
    refine decodeAt_frame read same.length fun p first last => same.same p (by omega) ?_
    rw [Address.bankSize] at *
    omega

/-- A step fetches its instruction from the positions that the program counter goes through exactly
if the instruction ends in the bank in which it begins, and exactly then it is the same for all
views with the same bytes in that bank. In any case its bytes are at its address and behind it. -/
theorem DispatchTable.fetches_in_bank_iff {table : DispatchTable} {view : View} {r : Registers}
    {record : Record} (read : table.decodeAt (.flat view) r.fullPc r.widths = .ok record) :
    record.bytes.length = record.length ∧
      (∀ i (bound : i < record.bytes.length),
        view.byteAt (r.fullPc.toNat + i) = record.bytes[i]) ∧
      ((∀ i < record.length, (r.advance i).fullPc.toNat = r.fullPc.toNat + i) ↔
        r.pc.toNat + record.length ≤ Address.bankSize) ∧
      ((∀ other, View.SameBank r.pb view other →
          table.decodeAt (.flat other) r.fullPc r.widths = .ok record) ↔
        r.pc.toNat + record.length ≤ Address.bankSize) := by
  have holds := (decodeAt_eq_ok_iff_holds read view).mp read
  have length := length_bytes read
  have short : record.length ≤ 4 := by
    have operands := (offset_of_decodeAt read).2
    rw [Record.length]
    omega
  exact ⟨length, fun i bound => holds.byteAt bound, r.fullPc_advance_eq_iff short,
    decodeAt_same_bank_iff read⟩

/-- An immediate load of a byte into the accumulator. -/
def loadImmediate (offset : UInt32) (value : UInt8) : Record where
  offset
  instruction := ⟨0xA9, .lda, .immediate⟩
  operands := { first := value.toUInt32, length := 1 }

/-- A load of a constant is decoded. -/
theorem decodeAt_loadImmediate {view : View} (offset : UInt32) {value : UInt8}
    (holds : view.Holds offset.toNat [0xA9, value]) :
    DispatchTable.standard.decodeAt (.flat view) offset {} = .ok (loadImmediate offset value) := by
  have entry : DispatchTable.standard.get 0xA9 = ⟨0xA9, .lda, .immediate⟩ :=
    DispatchTable.get_standard (by decide +kernel)
  have small : lowBytes value.toUInt32 1 = value.toUInt32 := by
    rw [← toUInt32_low, low_toUInt32]
  refine (DispatchTable.decodeAt_flat_eq_ok_iff _ _ _ _ (loadImmediate offset value) rfl).mpr
    ⟨rfl, entry, rfl, ?_, ?_⟩
  · exact congrArg (fun first => ({ first, length := 1 } : Operands)) small
  · show view.Holds offset.toNat [0xA9, Address.low value.toUInt32]
    rw [low_toUInt32]
    exact holds

/-- What is written over the end of the first bank is held there. -/
theorem holds_across {memory : Memory} (size : memory.size = 0x10001) (value : UInt8) :
    ((View.whole memory).setAll 0xFFFF [0xA9, value]).Holds 0xFFFF [0xA9, value] := by
  have room : 0xFFFF + [0xA9, value].length ≤ (View.whole memory).length := by
    rw [List.length_cons, List.length_singleton]
    exact Nat.le_of_eq size.symm
  have held := View.holds_setAll room
  rwa [show (View.whole memory).start + 0xFFFF = 0xFFFF from Nat.zero_add _] at held

/-- The byte behind the bank is not in it. -/
theorem sameBank_across {memory : Memory} (size : memory.size = 0x10001) (value value' : UInt8) :
    View.SameBank 0 ((View.whole memory).setAll 0xFFFF [0xA9, value])
      ((View.whole memory).setAll 0xFFFF [0xA9, value']) where
  length := rfl
  same := by
    intro p _ inside
    have below : p < 0x10000 := by
      have bank : p / 0x10000 = 0 := inside
      omega
    by_cases last : p = 0xFFFF
    · have first := (holds_across size value).byteAt Nat.two_pos
      have second := (holds_across size value').byteAt Nat.two_pos
      rw [last]
      exact second.trans first.symm
    · have before : 0 + p < 0xFFFF := by omega
      have kept (value : UInt8) : ((View.whole memory).setAll 0xFFFF [0xA9, value]).byteAt p =
          memory.byte (0 + p) :=
        memory.byte_setAll_of_outside 0xFFFF [0xA9, value] (.inl before)
      rw [kept, kept]

/-- A load that begins at the last byte of the first bank, with its operand behind the bank. -/
theorem DispatchTable.fetches_in_bank_iff_across :
    ∃ memory, Memory.create 0x10001 = .ok memory ∧
      ¬ ∀ other, View.SameBank 0 ((View.whole memory).setAll 0xFFFF [0xA9, 0x34]) other →
        standard.decodeAt (.flat other) 0xFFFF {} = .ok (loadImmediate 0xFFFF 0x34) := by
  obtain ⟨memory, created, size⟩ := @Memory.exists_create 0x10001 (by decide)
  have read := decodeAt_loadImmediate 0xFFFF (holds_across size 0x34)
  have fits := (@fetches_in_bank_iff _ _ { pc := 0xFFFF } _ read).2.2.2
  exact ⟨memory, created, fun same => absurd (fits.mp same) (by decide)⟩

/-- The operand is the byte behind the bank, while the program counter goes on to address zero. -/
theorem DispatchTable.not_fetches_in_bank :
    ∃ memory, Memory.create 0x10001 = .ok memory ∧
      let view := (View.whole memory).setAll 0xFFFF [0xA9, 0x34]
      let other := (View.whole memory).setAll 0xFFFF [0xA9, 0x12]
      let r : Registers := { pc := 0xFFFF }
      View.SameBank r.pb view other ∧
        standard.decodeAt (.flat view) r.fullPc r.widths = .ok (loadImmediate 0xFFFF 0x34) ∧
        standard.decodeAt (.flat other) r.fullPc r.widths = .ok (loadImmediate 0xFFFF 0x12) ∧
        (r.advance 1).fullPc = 0 := by
  obtain ⟨memory, created, size⟩ := @Memory.exists_create 0x10001 (by decide)
  exact ⟨memory, created, sameBank_across size 0x34 0x12,
    decodeAt_loadImmediate 0xFFFF (holds_across size 0x34),
    decodeAt_loadImmediate 0xFFFF (holds_across size 0x12), by decide⟩

end W65C816
