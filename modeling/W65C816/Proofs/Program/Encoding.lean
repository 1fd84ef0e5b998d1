import W65C816.Program.Encoding
import W65C816.Proofs.Memory.Bytes

/-!
# Reading an instruction back

The bytes of an instruction are its leading byte and those of its operands. On a flat view an
instruction is read exactly where the view holds its bytes, when its operands are no more than what
those bytes say: `DispatchTable.decodeAt_flat_eq_ok_iff`. Both directions of the round trip between
an encoder and a decoder are read off that one equivalence. `Instruction.reduce` is what is left of
operands that say more.
-/

set_option autoImplicit false

namespace W65C816

open Addressing

/-! ## Numbers of up to three bytes -/

/-- The number that the lowest `length` bytes make, of three bytes at most. -/
def lowBytes (value : UInt32) : Nat → UInt32
  | 0 => 0
  | 1 => value % 0x100
  | 2 => value % 0x10000
  | _ => value % 0x1000000

/-- A byte is the low byte of itself. -/
theorem low_toUInt32 (byte : UInt8) : Address.low byte.toUInt32 = byte := by
  apply UInt8.toNat.inj
  simp [Address.low, Address.offset, Word.low]

/-- A word is the offset of itself. -/
theorem offset_toUInt32 (word : UInt16) : Address.offset word.toUInt32 = word := by
  apply UInt16.toNat.inj
  simp [Address.offset]

/-- The low byte of a value is its lowest byte. -/
theorem toUInt32_low (value : UInt32) : (Address.low value).toUInt32 = lowBytes value 1 := by
  apply UInt32.toNat.inj
  simp [Address.low, Address.offset, Word.low, lowBytes]

/-- The offset of a value is its two lowest bytes. -/
theorem toUInt32_offset (value : UInt32) : (Address.offset value).toUInt32 = lowBytes value 2 := by
  apply UInt32.toNat.inj
  simp [Address.offset, lowBytes]

/-- The lowest bytes have the same low byte. -/
theorem low_lowBytes (value : UInt32) {length : Nat} (h : 0 < length) :
    Address.low (lowBytes value length) = Address.low value := by
  apply UInt8.toNat.inj
  rcases length with _ | _ | _ | _ <;>
    simp [lowBytes, Address.low, Address.offset, Word.low] at h ⊢

/-- The two lowest bytes have the same middle byte. -/
theorem middle_lowBytes (value : UInt32) {length : Nat} (h : 1 < length) :
    Address.middle (lowBytes value length) = Address.middle value := by
  apply UInt8.toNat.inj
  rcases length with _ | _ | _ | _ <;>
    simp [lowBytes, Address.middle, Address.offset, Word.high] at h ⊢

/-- All three bytes have the same bank. -/
theorem bank_lowBytes (value : UInt32) {length : Nat} (h : 2 < length) :
    Address.bank (lowBytes value length) = Address.bank value := by
  apply UInt8.toNat.inj
  rcases length with _ | _ | _ | _ <;> simp [lowBytes, Address.bank] at h ⊢
  omega

/-- Taking the lowest bytes twice is taking them once. -/
theorem lowBytes_lowBytes (value : UInt32) (length : Nat) :
    lowBytes (lowBytes value length) length = lowBytes value length := by
  apply UInt32.toNat.inj
  rcases length with _ | _ | _ | _ <;> simp [lowBytes]

/-- As many bytes are laid out as are asked for, up to three. -/
theorem length_littleEndian (value : UInt32) {length : Nat} (h : length ≤ 3) :
    (littleEndian value length).length = length := by
  simp [littleEndian]
  omega

/-- What lies above the lowest bytes does not show in them. -/
theorem littleEndian_lowBytes (value : UInt32) {length : Nat} (h : length ≤ 3) :
    littleEndian (lowBytes value length) length = littleEndian value length := by
  unfold littleEndian
  rcases length with _ | _ | _ | _ | _
  · rfl
  · rw [low_lowBytes value (by decide)]
    rfl
  · rw [low_lowBytes value (by decide), middle_lowBytes value (by decide)]
    rfl
  · rw [low_lowBytes value (by decide), middle_lowBytes value (by decide),
      bank_lowBytes value (by decide)]
  · omega

/-- The number of `length` bytes at a position, of three bytes at most. -/
def Bus.readNumber (bus : Bus) (position : UInt32) : Nat → Except Fault UInt32
  | 0 => .ok 0
  | 1 => do
    let value ← bus.read8 position
    pure value.toUInt32
  | 2 => do
    let value ← bus.read16 position
    pure value.toUInt32
  | _ => bus.read24 position

/-- What is made of an answer comes of an answer. -/
theorem bind_pure_eq_ok_iff {α β : Type} (action : Except Fault α) (change : α → β) (value : β) :
    (action >>= fun found => pure (change found)) = .ok value ↔
      ∃ found, action = .ok found ∧ change found = value := by
  cases action <;> simp [bind, Except.bind, pure, Except.pure]

/-- A number is read exactly where the view holds its bytes. -/
theorem Bus.readNumber_flat_eq_ok_iff (view : View) (position : UInt32) (value : UInt32)
    {length : Nat} (h : length ≤ 3) :
    Bus.readNumber (.flat view) position length = .ok value ↔
      lowBytes value length = value ∧ view.Holds position.toNat (littleEndian value length) := by
  rcases length with _ | _ | _ | _ | _
  · exact ⟨fun hread => ⟨Except.ok.inj hread, trivial⟩, fun both => congrArg Except.ok both.1⟩
  · refine (bind_pure_eq_ok_iff (view.read8 position) UInt8.toUInt32 value).trans ?_
    simp only [View.read8_eq_ok_iff]
    constructor
    · rintro ⟨byte, holds, rfl⟩
      change lowBytes byte.toUInt32 1 = _ ∧ view.Holds _ [Address.low byte.toUInt32]
      rw [← toUInt32_low, low_toUInt32]
      exact ⟨rfl, holds⟩
    · rintro ⟨small, holds⟩
      exact ⟨Address.low value, holds, (toUInt32_low value).trans small⟩
  · refine (bind_pure_eq_ok_iff (view.read16 position) UInt16.toUInt32 value).trans ?_
    simp only [View.read16_eq_ok_iff]
    constructor
    · rintro ⟨word, holds, rfl⟩
      change lowBytes word.toUInt32 2 = _ ∧ view.Holds _
        [Word.low (Address.offset word.toUInt32), Word.high (Address.offset word.toUInt32)]
      rw [← toUInt32_offset, offset_toUInt32]
      exact ⟨rfl, holds⟩
    · rintro ⟨small, holds⟩
      exact ⟨Address.offset value, holds, (toUInt32_offset value).trans small⟩
  · exact View.read24_eq_ok_iff view position value
  · omega

/-! ## Instructions -/

namespace Instruction

variable {instruction : Instruction} {widths : Widths} {operands : Operands}

/-- The bytes behind the leading byte. A block move has its second operand first. -/
def operandBytes (instruction : Instruction) (operands : Operands) : List UInt8 :=
  if instruction.mode = .blockMove then [Address.low operands.second, Address.low operands.first]
  else littleEndian operands.first operands.length

/-- What the bytes say of operands: the first one cut to its length and no second one, or both banks
of a block move. -/
def reduce (instruction : Instruction) (operands : Operands) : Operands :=
  if instruction.mode = .blockMove then
    { operands with first := lowBytes operands.first 1, second := lowBytes operands.second 1 }
  else { operands with first := lowBytes operands.first operands.length, second := 0 }

/-- The operands of an instruction that is to be written, with the length that it gives them. -/
def operandsFor (instruction : Instruction) (width : OperandWidth) (first second : UInt32) :
    Operands where
  first
  second
  length := instruction.mode.operandLength?.getD width.length

/-- An instruction is encoded as its code and the bytes of its operands. -/
theorem encode_eq (instruction : Instruction) (width : OperandWidth) (first second : UInt32) :
    instruction.encode width first second =
      instruction.code :: instruction.operandBytes (instruction.operandsFor width first second) :=
  rfl

/-- An encoding has its code at least. -/
theorem encode_ne_nil (instruction : Instruction) (width : OperandWidth) (first second : UInt32) :
    instruction.encode width first second ≠ [] :=
  List.cons_ne_nil _ _

/-- A block move has two operand bytes. -/
theorem length_blockMove (valid : instruction.isValid = true) (move : instruction.mode = .blockMove)
    {length : Nat} (h : instruction.operandLength widths = .ok length) : length = 2 := by
  unfold operandLength at h
  rw [if_pos valid, move] at h
  exact (Except.ok.inj h).symm

/-- The operand bytes are as many as the operands are long. -/
theorem length_operandBytes (valid : instruction.isValid = true)
    (h : instruction.operandLength widths = .ok operands.length) :
    (instruction.operandBytes operands).length = operands.length := by
  unfold operandBytes
  split
  · next move => exact (length_blockMove valid move h).symm
  · exact length_littleEndian _ (operandLength_le h)

/-- Reduced operands have the same bytes. -/
theorem operandBytes_reduce (h : instruction.operandLength widths = .ok operands.length) :
    instruction.operandBytes (instruction.reduce operands) = instruction.operandBytes operands := by
  unfold operandBytes reduce
  split
  · rw [low_lowBytes _ Nat.one_pos, low_lowBytes _ Nat.one_pos]
  · exact littleEndian_lowBytes _ (operandLength_le h)

/-- Reducing operands twice is reducing them once. -/
theorem reduce_reduce (instruction : Instruction) (operands : Operands) :
    instruction.reduce (instruction.reduce operands) = instruction.reduce operands := by
  unfold reduce
  split
  · simp only [lowBytes_lowBytes]
  · simp only [lowBytes_lowBytes]

/-- Every instruction but a block move has one number for its operands. -/
theorem decode_number (single : instruction.mode ≠ .blockMove) {length : Nat}
    (h : instruction.operandLength widths = .ok length) (bus : Bus) (position : UInt32) :
    instruction.decode bus position widths =
      bus.readNumber position length >>= fun first => pure { first, length } := by
  unfold decode
  rw [h]
  generalize instruction.mode = mode at single
  rcases length with _ | _ | _ | length
  · cases mode <;> rfl
  · cases found : bus.read8 position <;> cases mode <;>
      first
        | exact absurd rfl single
        | simp [Bus.readNumber, found, bind, Except.bind, pure, Except.pure]
  · cases found : bus.read16 position <;> cases mode <;>
      first
        | exact absurd rfl single
        | simp [Bus.readNumber, found, bind, Except.bind, pure, Except.pure]
  · cases mode <;>
      first
        | exact absurd rfl single
        | rfl

/-- A block move is checked as a whole, and then its destination bank is read before its source
bank. -/
theorem decode_blockMove_flat (move : instruction.mode = .blockMove)
    (h : instruction.operandLength widths = .ok 2) (view : View) (position : UInt32) :
    instruction.decode (.flat view) position widths =
      (view.check position 2 >>= fun _ => view.read8 position >>= fun destination =>
        view.read8 (position + 1) >>= fun source =>
          pure { first := source.toUInt32, second := destination.toUInt32, length := 2 }) := by
  unfold decode
  rw [h, move]
  rfl

/-- A block move is read where the view holds its two banks. -/
theorem decode_blockMove_flat_eq_ok_iff (move : instruction.mode = .blockMove)
    (h : instruction.operandLength widths = .ok 2) (view : View) (position : UInt32) :
    instruction.decode (.flat view) position widths = .ok operands ↔
      operands.length = 2 ∧ lowBytes operands.first 1 = operands.first ∧
        lowBytes operands.second 1 = operands.second ∧
        view.Holds position.toNat [Address.low operands.second, Address.low operands.first] := by
  rw [decode_blockMove_flat move h]
  constructor
  · intro hread
    cases room : view.check position 2 with
    | error fault => simp [room, bind, Except.bind] at hread
    | ok _ =>
      have inside : position.toNat + 2 ≤ view.length :=
        (View.check_eq_ok_iff view position 2).mp room
      have next : (position + 1).toNat = position.toNat + 1 :=
        view.toNat_add_one (by omega)
      cases hdestination : view.read8 position with
      | error fault => simp [room, hdestination, bind, Except.bind] at hread
      | ok destination =>
        cases hsource : view.read8 (position + 1) with
        | error fault => simp [room, hdestination, hsource, bind, Except.bind] at hread
        | ok source =>
          simp only [room, hdestination, hsource, bind, Except.bind, pure, Except.pure,
            Except.ok.injEq] at hread
          rw [View.read8_eq_ok_iff] at hdestination hsource
          rw [next] at hsource
          subst hread
          refine ⟨rfl, ?_, ?_, ?_⟩
          · rw [← toUInt32_low, low_toUInt32]
          · rw [← toUInt32_low, low_toUInt32]
          · rw [low_toUInt32, low_toUInt32]
            exact ⟨hdestination.1, hdestination.2.1, hsource⟩
  · rintro ⟨whole, hfirst, hsecond, holds⟩
    have inside : position.toNat + 2 ≤ view.length := holds.end_le nofun
    have next : (position + 1).toNat = position.toNat + 1 :=
      view.toNat_add_one (by omega)
    have room := (View.check_eq_ok_iff view position 2).mpr inside
    have hdestination := (View.read8_eq_ok_iff view position _).mpr ⟨holds.1, holds.2.1, trivial⟩
    have hsource := (View.read8_eq_ok_iff view (position + 1) _).mpr (next ▸ holds.2.2)
    rw [room, hdestination, hsource]
    obtain ⟨first, second, length⟩ := operands
    cases whole
    simp only [bind, Except.bind, pure, Except.pure, toUInt32_low]
    rw [hfirst, hsecond]

/-- The operands of an instruction are read exactly where the view holds their bytes and they say
nothing more. -/
theorem decode_flat_eq_ok_iff (valid : instruction.isValid = true) (view : View)
    (position : UInt32) :
    instruction.decode (.flat view) position widths = .ok operands ↔
      instruction.operandLength widths = .ok operands.length ∧
        instruction.reduce operands = operands ∧
        view.Holds position.toNat (instruction.operandBytes operands) := by
  obtain ⟨first, second, length⟩ := operands
  unfold reduce operandBytes
  by_cases move : instruction.mode = .blockMove
  · have two : instruction.operandLength widths = .ok 2 := by
      unfold operandLength
      rw [if_pos valid, move]
      rfl
    rw [if_pos move, if_pos move, decode_blockMove_flat_eq_ok_iff move two, two]
    simp [eq_comm, and_assoc]
  · rw [if_neg move, if_neg move]
    constructor
    · intro hread
      have hlength := operandLength_of_decode hread
      rw [decode_number move hlength, bind_pure_eq_ok_iff] at hread
      obtain ⟨number, hnumber, same⟩ := hread
      rw [Bus.readNumber_flat_eq_ok_iff view position number (operandLength_le hlength)] at hnumber
      cases same
      exact ⟨hlength, by rw [hnumber.1], hnumber.2⟩
    · rintro ⟨hlength, same, holds⟩
      rw [decode_number move hlength, bind_pure_eq_ok_iff]
      injection same with small none
      refine ⟨first, ?_, by rw [← none]⟩
      exact (Bus.readNumber_flat_eq_ok_iff view position first (operandLength_le hlength)).mpr
        ⟨small, holds⟩

end Instruction

/-! ## Tables -/

/-- Among instructions with different leading bytes, the entry of a byte is the one that has it. -/
theorem Registry.entry_of_mem {registry : Registry}
    (distinct : registry.Pairwise fun i j => i.code ≠ j.code) {instruction : Instruction}
    (member : instruction ∈ registry) : registry.entry instruction.code = instruction := by
  unfold entry
  induction registry with
  | nil => cases member
  | cons first rest ih =>
    obtain ⟨apart, distinct⟩ := List.pairwise_cons.mp distinct
    rcases List.mem_cons.mp member with rfl | later
    · simp
    · have other : first.code ≠ instruction.code := apart instruction later
      simp only [List.find?_cons, other, decide_false]
      exact ih distinct later

/-- The entry of a byte is registered or stands in for an instruction. -/
theorem Registry.mem_of_entry {registry : Registry} {code : UInt8}
    (valid : (registry.entry code).isValid = true) : registry.entry code ∈ registry := by
  unfold entry at valid ⊢
  cases found : registry.find? fun instruction => instruction.code = code with
  | some instruction => exact List.mem_of_find?_eq_some found
  | none =>
    rw [found] at valid
    cases valid

namespace DispatchTable

/-- A table has at each code an instruction with that code. -/
theorem code_get (table : DispatchTable) (code : UInt8) : (table.get code).code = code := by
  rw [get_eq_entry, Registry.entry]
  cases found : table.registry.find? fun instruction => instruction.code = code with
  | some instruction =>
    have same := List.find?_some found
    exact of_decide_eq_true same
  | none => rfl

/-- The leading byte of an instruction that is read is the byte at its position. -/
theorem read8_of_decodeAt {table : DispatchTable} {bus : Bus} {offset : UInt32} {widths : Widths}
    {record : Record} (h : table.decodeAt bus offset widths = .ok record) :
    bus.read8 offset = .ok record.instruction.code := by
  simp only [decodeAt, bind, Except.bind, pure, Except.pure] at h
  split at h
  · cases h
  · next code byte =>
    split at h
    · cases h
    · cases h
      rw [code_get]
      exact byte

/-- A registered instruction is the entry of its byte. -/
theorem get_of_mem {table : DispatchTable} {instruction : Instruction}
    (member : instruction ∈ table.registry) : table.get instruction.code = instruction :=
  (table.get_eq_entry _).trans (Registry.entry_of_mem table.admissible.2 member)

/-- The instructions of a table are valid. -/
theorem valid_of_mem {table : DispatchTable} {instruction : Instruction}
    (member : instruction ∈ table.registry) : instruction.isValid = true :=
  table.admissible.1 instruction member

/-- What is found is the first registration of the operation in the mode. -/
theorem find?_eq (table : DispatchTable) (opcode : Opcode) (mode : Mode) :
    table.find? opcode mode =
      table.registry.find? fun i => i.opcode = opcode ∧ i.mode = mode := by
  rw [find?, table.encodings_eq, Registry.code?_reverseIndex, Option.map_map]
  cases found : table.registry.find? fun i => i.opcode = opcode ∧ i.mode = mode with
  | some instruction =>
    have entry := get_of_mem (List.mem_of_find?_eq_some found)
    exact congrArg some entry
  | none => rfl

/-- A valid instruction that is listed was registered. -/
theorem mem_of_mem_toList {table : DispatchTable} {instruction : Instruction}
    (member : instruction ∈ table.toList) (valid : instruction.isValid = true) :
    instruction ∈ table.registry := by
  rw [toList, table.entries_eq, Vector.mem_toList_iff, Vector.mem_ofFn] at member
  obtain ⟨code, rfl⟩ := member
  exact Registry.mem_of_entry valid

/-- An encoder finds a registered instruction of the operation that it looks for, whether the mode
is there or the operation has a single encoding. -/
theorem registered_of_lookup {table : DispatchTable} {opcode : Opcode} {mode : Mode}
    {instruction : Instruction} (h : table.lookup opcode mode = .ok instruction) :
    instruction ∈ table.registry ∧ instruction.opcode = opcode := by
  unfold lookup at h
  split at h
  · next found =>
    injection h with same
    rw [find?_eq] at found
    have both := List.find?_some found
    exact same ▸ ⟨List.mem_of_find?_eq_some found, (of_decide_eq_true both).1⟩
  · split at h
    · next only =>
      injection h with same
      subst same
      have member : _ ∈ table.encodingsOf opcode := only ▸ List.mem_singleton_self _
      rw [encodingsOf, List.mem_filter, Bool.and_eq_true, beq_iff_eq] at member
      exact ⟨mem_of_mem_toList member.1 member.2.1, member.2.2⟩
    · cases h
    · cases h

/-- What an encoder looks up is registered. -/
theorem mem_of_lookup {table : DispatchTable} {opcode : Opcode} {mode : Mode}
    {instruction : Instruction} (h : table.lookup opcode mode = .ok instruction) :
    instruction ∈ table.registry :=
  (registered_of_lookup h).1

/-- What an encoder looks up is of the operation that it looks for. -/
theorem opcode_of_lookup {table : DispatchTable} {opcode : Opcode} {mode : Mode}
    {instruction : Instruction} (h : table.lookup opcode mode = .ok instruction) :
    instruction.opcode = opcode :=
  (registered_of_lookup h).2

/-- What is read is the entry of the byte at its position. -/
theorem instruction_of_decodeAt {table : DispatchTable} {bus : Bus} {offset : UInt32}
    {widths : Widths} {record : Record} {code : UInt8} (byte : bus.read8 offset = .ok code)
    (read : table.decodeAt bus offset widths = .ok record) :
    record.instruction = table.get code := by
  simp only [decodeAt, byte, bind, Except.bind, pure, Except.pure] at read
  split at read
  · cases read
  · cases read
    rfl

/-- On a flat view, decoding reads the code and then the operands behind it. -/
theorem decodeAt_flat (table : DispatchTable) (view : View) (offset : UInt32) (widths : Widths) :
    table.decodeAt (.flat view) offset widths =
      (view.read8 offset >>= fun code =>
        (table.get code).decode (.flat view) (offset + 1) widths >>= fun operands =>
          pure { offset, instruction := table.get code, operands }) := rfl

/-- An instruction is read exactly where the view holds its bytes, and with what they say. -/
theorem decodeAt_flat_eq_ok_iff (table : DispatchTable) (view : View) (offset : UInt32)
    (widths : Widths) (record : Record) (valid : record.instruction.isValid = true) :
    table.decodeAt (.flat view) offset widths = .ok record ↔
      record.offset = offset ∧ table.get record.instruction.code = record.instruction ∧
        record.instruction.operandLength widths = .ok record.operands.length ∧
        record.instruction.reduce record.operands = record.operands ∧
        view.Holds offset.toNat
          (record.instruction.code :: record.instruction.operandBytes record.operands) := by
  obtain ⟨here, instruction, operands⟩ := record
  have next (inside : offset.toNat < view.length) : (offset + 1).toNat = offset.toNat + 1 :=
    view.toNat_add_one inside
  rw [decodeAt_flat]
  constructor
  · intro hread
    cases hcode : view.read8 offset with
    | error fault => simp [hcode, bind, Except.bind] at hread
    | ok code =>
      rw [hcode] at hread
      change ((table.get code).decode (.flat view) (offset + 1) widths >>= _) = _ at hread
      rw [bind_pure_eq_ok_iff] at hread
      obtain ⟨found, hfound, same⟩ := hread
      injection same with hhere hinstruction hoperands
      subst hhere hinstruction hoperands
      rw [View.read8_eq_ok_iff] at hcode
      rw [Instruction.decode_flat_eq_ok_iff valid, next hcode.1] at hfound
      obtain ⟨hlength, hreduce, holds⟩ := hfound
      refine ⟨rfl, by rw [code_get], hlength, hreduce, hcode.1, ?_, holds⟩
      rw [code_get]
      exact hcode.2.1
  · rintro ⟨rfl, hget, hlength, hreduce, inside, hcode, holds⟩
    have hread := (View.read8_eq_ok_iff view here instruction.code).mpr ⟨inside, hcode, trivial⟩
    rw [hread]
    change ((table.get instruction.code).decode (.flat view) (here + 1) widths >>= _) = _
    rw [bind_pure_eq_ok_iff]
    refine ⟨operands, ?_, congrArg (fun found => Record.mk here found operands) hget⟩
    rw [hget]
    rw [← next inside] at holds
    exact (Instruction.decode_flat_eq_ok_iff valid view (here + 1)).mpr ⟨hlength, hreduce, holds⟩

/-- What is read is the entry of a byte that lies in the view. -/
theorem exists_code_of_decodeAt {table : DispatchTable} {view : View} {offset : UInt32}
    {widths : Widths} {record : Record}
    (read : table.decodeAt (.flat view) offset widths = .ok record) :
    ∃ code, record.instruction = table.get code ∧ offset.toNat < view.length := by
  rw [decodeAt_flat] at read
  cases hcode : view.read8 offset with
  | error fault => simp [hcode, bind, Except.bind] at read
  | ok code =>
    rw [hcode] at read
    change ((table.get code).decode (.flat view) (offset + 1) widths >>= _) = _ at read
    rw [bind_pure_eq_ok_iff] at read
    obtain ⟨operands, -, rfl⟩ := read
    rw [View.read8_eq_ok_iff] at hcode
    exact ⟨code, rfl, hcode.1⟩

end DispatchTable

end W65C816
