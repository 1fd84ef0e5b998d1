import W65C816.Proofs.Memory.AllOrNothing
import W65C816.Proofs.Program.Hooks

/-!
# Instructions are assembled whole or not at all

An instruction is written wherever an encoding is found for it, its operands fit, and each of its
positions names a byte: `DispatchTable.Writable`. Then it takes its leading byte and the bytes of
its operands, and the offset moves by as many: `DispatchTable.Emits`. Otherwise nothing is left
behind. This does not hang on the bytes being written at once. With the range checked first they
may be written access by access, and no access fails: `Instruction.writePieces_eq`.

A hook is registered before its instruction is written. If that fails the slot is emptied again, and
as it was empty before, the slots are what they were: `HookTable.remove_of_register`. If all goes
well the hook lies in the first slot that was free, and no other slot has changed:
`HookTable.Gains`. `Assembler.allOrNothing` puts this together for whatever an assembler may be
asked for, and `Assembler.assemblesAll_of_assemble` follows it through a list of items.
-/

set_option autoImplicit false

namespace W65C816

open Addressing W65C816.Action

/-! ## One instruction -/

/-- An instruction takes its leading byte and the bytes of its operands. The mode says how many
these are or, if it does not, the width that was asked for. -/
theorem Instruction.length_encode (instruction : Instruction) (width : OperandWidth)
    (first second : UInt32) :
    (instruction.encode width first second).length =
      1 + instruction.mode.operandLength?.getD width.length := by
  obtain ⟨code, opcode, mode⟩ := instruction
  unfold encode littleEndian
  cases mode <;> cases width <;> rfl

namespace Instruction

/-- Writes the operands of an instruction. A number is written in one access, the two banks of a
block move in two. -/
def writeOperands (instruction : Instruction) (width : OperandWidth) (first second : UInt32)
    (position : UInt32) : EStateM Fault Bus Unit :=
  if instruction.mode = .blockMove then do
    Bus.write8 position (Address.low second)
    Bus.write8 (position + 1) (Address.low first)
  else
    match instruction.mode.operandLength?.getD width.length with
    | 0 => pure ()
    | 1 => Bus.write8 position (Address.low first)
    | 2 => Bus.write16 position (Address.offset first)
    | _ => Bus.write24 position first

/-- Checks the range of an instruction and writes its leading byte and its operands. -/
def writePieces (instruction : Instruction) (width : OperandWidth) (first second : UInt32)
    (position : UInt32) : EStateM Fault Bus Unit := do
  Action.look fun bus =>
    bus.check position (1 + instruction.mode.operandLength?.getD width.length)
  Bus.write8 position instruction.code
  instruction.writeOperands width first second (position + 1)

variable {instruction : Instruction} {width : OperandWidth} {first second position : UInt32}
  {bus : Bus}

/-- Where every byte of the operands can be written their accesses write them as a row. -/
theorem writeOperands_of_named
    (h : ∀ k < (instruction.encode width first second).tail.length,
      (bus.index? (position + UInt32.ofNat k)).isSome) :
    instruction.writeOperands width first second position bus =
      Bus.writeEach position (instruction.encode width first second).tail bus := by
  unfold encode at h ⊢
  unfold writeOperands
  rw [List.tail_cons] at h ⊢
  by_cases move : instruction.mode = .blockMove
  · rw [if_pos move, if_pos move]
    simp only [Bus.writeEach, bind_pure_unit]
  · rw [if_neg move] at h ⊢
    rw [if_neg move]
    generalize instruction.mode.operandLength?.getD width.length = count at h ⊢
    rcases count with _ | _ | _ | count
    · rfl
    · have one : littleEndian first (0 + 1) = [Address.low first] := rfl
      rw [one]
      simp only [Bus.writeEach, bind_pure_unit]
    · have two : littleEndian first (0 + 1 + 1) = [Address.low first, Address.middle first] := rfl
      rw [two] at h ⊢
      rw [← Bus.writeBlock_of_named (List.cons_ne_nil _ _) h]
      exact Bus.write16_eq_writeBlock _ _ bus
    · have three : littleEndian first (count + 1 + 1 + 1) =
          [Address.low first, Address.middle first, Address.bank first] :=
        List.take_of_length_le (Nat.le_add_left 3 count)
      rw [three] at h ⊢
      rw [← Bus.writeBlock_of_named (List.cons_ne_nil _ _) h]
      exact Bus.write24_eq_writeBlock _ _ bus

/-- Piece by piece an instruction is written to the same end as in one row. Once its range is
checked no piece fails. -/
theorem writePieces_eq (instruction : Instruction) (width : OperandWidth)
    (first second position : UInt32) (bus : Bus) :
    instruction.writePieces width first second position bus =
      Bus.writeBlock position (instruction.encode width first second) bus := by
  have nonempty := instruction.encode_ne_nil width first second
  unfold writePieces
  rw [← instruction.length_encode width first second, Action.bind_apply]
  cases checked : bus.check position (instruction.encode width first second).length with
  | error fault =>
    rw [Bus.writeBlock_of_unreachable nonempty checked]
    simp only [Action.look, checked]
  | ok _ =>
    have named := (bus.check_eq_ok_iff position (List.length_pos_iff.mpr nonempty)).mp checked
    have code := named 0 (List.length_pos_iff.mpr nonempty)
    rw [Bytewise.add_ofNat_zero] at code
    obtain ⟨i, place⟩ := Option.isSome_iff_exists.mp code
    have written := (Bus.write8_eq_ok_iff bus _ position instruction.code).mpr ⟨i, place, rfl⟩
    have operands : instruction.writeOperands width first second (position + 1)
        (bus.put i instruction.code) = Bus.writeEach (position + 1)
          (instruction.encode width first second).tail (bus.put i instruction.code) :=
      writeOperands_of_named fun k bound => by
        rw [Bus.index?_put, ← Bytewise.add_ofNat_succ]
        exact named (k + 1) (Nat.succ_lt_succ bound)
    have row : Bus.writeEach position (instruction.encode width first second) =
        Bus.write8 position instruction.code >>= fun _ =>
          Bus.writeEach (position + 1) (instruction.encode width first second).tail := rfl
    rw [Bus.writeBlock_of_named nonempty named, row, Action.bind_of_ok written, ← operands]
    simp only [Action.look, checked]
    exact Action.bind_of_ok written

end Instruction

namespace DispatchTable

variable {table : DispatchTable} {request : WriteRequest} {offset : UInt32} {bus next : Bus}

/-- An instruction is found for a request, its operands fit, and each of its positions names a
byte. -/
def Writable (table : DispatchTable) (request : WriteRequest) (offset : UInt32)
    (bus : Bus) : Prop :=
  ∃ instruction, table.lookup request.opcode request.mode = .ok instruction ∧
    instruction.fits request.width = true ∧
    ∀ k < 1 + instruction.mode.operandLength?.getD request.width.length,
      (bus.index? (offset + UInt32.ofNat k)).isSome

/-- From one bus to the other the instruction of a request was written at an offset: its leading
byte and the bytes of its operands, at as many positions, and nothing else. The offset has moved by
their number, and has not wrapped. -/
def Emits (table : DispatchTable) (request : WriteRequest) (offset : UInt32) (bus : Bus)
    (behind : UInt32) (next : Bus) : Prop :=
  ∃ instruction, table.lookup request.opcode request.mode = .ok instruction ∧
    instruction.fits request.width = true ∧
    let row := instruction.encode request.width request.first request.second
    row.length = 1 + instruction.mode.operandLength?.getD request.width.length ∧
      bus.Rewrites offset row next ∧ behind.toNat = offset.toNat + row.length

/-- The row of an instruction is written as a whole or not at all. -/
theorem allOrNothing_row (instruction : Instruction) (width : OperandWidth)
    (first second offset : UInt32) (bus : Bus) :
    let row := instruction.encode width first second
    AllOrNothing (Bus.writeBlock offset row) bus
      (∀ k < row.length, (bus.index? (offset + UInt32.ofNat k)).isSome)
      fun _ next => bus.Rewrites offset row next :=
  Bus.allOrNothing_writeBlock offset (instruction.encode_ne_nil _ _ _)
    (Nat.le_trans (Assembler.length_encode_le _ _ _ _) (by decide)) bus

/-- An instruction is written exactly if its row is. -/
theorem write_eq_ok_iff {behind : UInt32} :
    table.write offset request bus = .ok behind next ↔
      ∃ instruction, table.lookup request.opcode request.mode = .ok instruction ∧
        instruction.fits request.width = true ∧
        let row := instruction.encode request.width request.first request.second
        Bus.writeBlock offset row bus = .ok () next ∧
          behind = offset + UInt32.ofNat row.length := by
  unfold write
  constructor
  · intro h
    cases asked : table.bytesFor request with
    | error fault =>
      rw [asked] at h
      cases h
    | ok row =>
      obtain ⟨instruction, found, fits, rfl⟩ := (bytesFor_eq_ok_iff table request row).mp asked
      simp only [asked] at h
      split at h
      · next written =>
        cases h
        exact ⟨instruction, found, fits, written, rfl⟩
      · cases h
  · rintro ⟨instruction, found, fits, written, rfl⟩
    rw [(bytesFor_eq_ok_iff table request _).mpr ⟨instruction, found, fits, rfl⟩]
    simp only [written]

/-- An instruction is written whole where it can be, and otherwise nothing is. -/
theorem allOrNothing_write (table : DispatchTable) (offset : UInt32) (request : WriteRequest)
    (bus : Bus) :
    AllOrNothing (table.write offset request) bus (table.Writable request offset bus)
      fun behind next => table.Emits request offset bus behind next where
  fails := fun fault next failed => by
    unfold write at failed
    split at failed
    · cases failed
      rfl
    · split at failed
      · cases failed
      · next written =>
        cases failed
        exact Bus.atomic_writeBlock _ _ bus written
  succeeds := fun behind next done => by
    obtain ⟨instruction, found, fits, written, rfl⟩ := write_eq_ok_iff.mp done
    have rewrites := (allOrNothing_row _ _ _ _ offset bus).succeeds written
    refine ⟨instruction, found, fits, instruction.length_encode _ _ _, rewrites, ?_⟩
    have four := Assembler.length_encode_le instruction request.width request.first request.second
    have room := rewrites.end_lt
    rw [UInt32.toNat_add, UInt32.toNat_ofNat',
      Nat.mod_eq_of_lt (Nat.lt_of_le_of_lt four (by decide)), Nat.mod_eq_of_lt room]
  possible := by
    constructor
    · rintro ⟨_, next, done⟩
      obtain ⟨instruction, found, fits, written, -⟩ := write_eq_ok_iff.mp done
      have named := (allOrNothing_row _ _ _ _ offset bus).possible.mp ⟨(), next, written⟩
      rw [instruction.length_encode] at named
      exact ⟨instruction, found, fits, named⟩
    · rintro ⟨instruction, found, fits, named⟩
      rw [← instruction.length_encode request.width request.first request.second] at named
      obtain ⟨_, next, written⟩ := (allOrNothing_row _ _ _ _ offset bus).possible.mpr named
      exact ⟨_, next, write_eq_ok_iff.mpr ⟨instruction, found, fits, written, rfl⟩⟩

end DispatchTable

/-! ## Slots -/

namespace HookTable

variable {hooks next : HookTable} {hook : Hook} {index : Nat}

/-- From one table to the other a hook was put into the first slot that was free. -/
structure Gains (hook : Hook) (index : Nat) (hooks next : HookTable) : Prop where
  inside : index < hookSlots
  free : hooks.get? index = none
  first : ∀ i < index, (hooks.get? i).isSome
  slots : ∀ i, next.get? i = if i = index then some hook else hooks.get? i

/-- The slots before the one that is given out are taken. -/
theorem isSome_of_firstFree? {place : Fin hookSlots} (h : hooks.firstFree? = some place) {i : Nat}
    (before : i < place) : (hooks.get? i).isSome := by
  unfold firstFree? Vector.findFinIdx? at h
  obtain ⟨position, found, rfl⟩ := Option.map_eq_some_iff.mp h
  have inside : i < hookSlots := Nat.lt_trans before (Fin.isLt _)
  have taken := (Array.findFinIdx?_eq_some_iff.mp found).2
    ⟨i, hooks.slots.size_toArray.symm ▸ inside⟩ before
  rw [Option.isNone_iff_eq_none] at taken
  rw [get?, dif_pos inside]
  exact Option.isSome_iff_ne_none.mpr taken

/-- Where no slot is given out they are all taken. -/
theorem isSome_of_firstFree?_eq_none (h : hooks.firstFree? = none) {i : Nat}
    (inside : i < hookSlots) : (hooks.get? i).isSome := by
  unfold firstFree? Vector.findFinIdx? at h
  have none := Array.findFinIdx?_eq_none_iff.mp (Option.map_eq_none_iff.mp h)
  have taken := none (hooks.slots[i]) (by simp)
  rw [Option.isNone_iff_eq_none] at taken
  rw [get?, dif_pos inside]
  exact Option.isSome_iff_ne_none.mpr taken

/-- There is a slot to be given out. -/
def HasFree (hooks : HookTable) : Prop :=
  ∃ i < hookSlots, hooks.get? i = none

/-- A hook is registered where a slot is free, and otherwise nothing changes. -/
theorem allOrNothing_register (hook : Hook) (hooks : HookTable) :
    AllOrNothing (register hook) hooks hooks.HasFree fun index next =>
      Gains hook index hooks next where
  fails := fun fault next failed => by
    unfold register at failed
    split at failed <;> cases failed
    rfl
  succeeds := fun index next done => by
    obtain ⟨inside, free, same⟩ := register_eq_ok done
    refine ⟨inside, free, fun i before => ?_, fun i => ?_⟩
    · unfold register at done
      split at done
      · next found =>
        cases done
        exact isSome_of_firstFree? found before
      · cases done
    · rw [same, get?_put]
      simp only [inside, and_true]
  possible := by
    constructor
    · rintro ⟨index, next, done⟩
      obtain ⟨inside, free, -⟩ := register_eq_ok done
      exact ⟨index, inside, free⟩
    · rintro ⟨i, inside, free⟩
      unfold register
      cases found : hooks.firstFree? with
      | some index => exact ⟨index, _, rfl⟩
      | none =>
        have taken := isSome_of_firstFree?_eq_none found inside
        rw [free] at taken
        cases taken

/-- To take back a hook that was registered restores the table. -/
theorem remove_of_register (h : register hook hooks = .ok index next) :
    (next.remove index).2 = hooks := by
  obtain ⟨inside, free, rfl⟩ := register_eq_ok h
  obtain ⟨slots⟩ := hooks
  rw [get?, dif_pos inside] at free
  simp only [remove, put, dif_pos inside, Vector.set_set]
  rw [← free, Vector.set_getElem_self]

end HookTable

/-! ## The assembler -/

/-- The request that an item stands for. There is none for a hook, and none for an operation in a
mode that leaves the width of its operand open. -/
def Item.request? : Item → Option WriteRequest
  | .implied opcode => some { opcode, mode := .implied, width := .none }
  | .constant8 opcode value =>
    some { opcode, mode := .immediate, width := .byte, first := value.toUInt32 }
  | .constant16 opcode value =>
    some { opcode, mode := .immediate, width := .word, first := value.toUInt32 }
  | .operation opcode mode operand => (Assembler.request opcode mode operand).toOption
  | .blockMove opcode source destination =>
    some {
      opcode
      mode := .blockMove
      width := .word
      first := source.toUInt32
      second := destination.toUInt32 }
  | .hook _ => none

namespace Assembler

/-- From one assembler to the other the instruction of a request was written, and the offset has
moved behind it. -/
structure Writes (request : WriteRequest) (assembler next : Assembler) : Prop where
  table : next.table = assembler.table
  emits : assembler.table.Emits request assembler.offset assembler.bus next.offset next.bus

/-- From one assembler to the other a hook was put into the first free slot, and the instruction
that calls it was written. -/
structure AddsHook (hook : Hook) (index : Nat) (assembler next : Assembler) : Prop where
  writes : Writes (hookRequest index) assembler next
  gains : HookTable.Gains hook index assembler.hooks next.hooks

/-- From one assembler to the other an item was assembled. A hook yields its slot. Every other item
stands for a request and changes no slot. -/
inductive Assembles (assembler : Assembler) : Item → Option Nat → Assembler → Prop
  | instruction {item : Item} {request : WriteRequest} {next : Assembler}
      (asked : item.request? = some request) (writes : Writes request assembler next)
      (hooks : next.hooks = assembler.hooks) : Assembles assembler item none next
  | hook {hook : Hook} {index : Nat} {next : Assembler}
      (done : AddsHook hook index assembler next) :
      Assembles assembler (.hook hook) (some index) next

/-- Whether an item can be assembled: a hook needs a slot and room for its instruction, which is the
same for all slots, and every other item needs room for the instruction that it stands for. -/
def CanAssemble (assembler : Assembler) : Item → Prop
  | .hook _ =>
    assembler.hooks.HasFree ∧
      assembler.table.Writable (hookRequest 0) assembler.offset assembler.bus
  | item =>
    ∃ request, item.request? = some request ∧
      assembler.table.Writable request assembler.offset assembler.bus

/-- The next instruction is written and the offset goes on, or nothing changes. -/
theorem allOrNothing_request (request : WriteRequest) (assembler : Assembler) :
    AllOrNothing (write request) assembler
      (assembler.table.Writable request assembler.offset assembler.bus)
      fun _ next => Writes request assembler next ∧ next.hooks = assembler.hooks := by
  obtain ⟨table, bus, hooks, offset⟩ := assembler
  have whole := table.allOrNothing_write offset request bus
  refine ⟨fun fault next failed => ?_, fun value next done => ?_, ?_⟩
  · simp only [write] at failed
    split at failed
    · cases failed
    · next written =>
      cases failed
      rw [whole.fails written]
  · simp only [write] at done
    split at done
    · next written =>
      cases done
      exact ⟨⟨rfl, whole.succeeds written⟩, rfl⟩
    · cases done
  · rw [← whole.possible]
    simp only [write]
    cases table.write offset request bus <;> simp

/-- A hook is written exactly if it can be registered and then its instruction can be written. -/
theorem writeHook_eq_ok_iff {hook : Hook} {index : Nat} {assembler next : Assembler} :
    writeHook hook assembler = .ok index next ↔
      ∃ taken, HookTable.register hook assembler.hooks = .ok index taken ∧
        write (hookRequest index) { assembler with hooks := taken } = .ok () next := by
  obtain ⟨table, bus, hooks, offset⟩ := assembler
  simp only [writeHook]
  constructor
  · intro done
    split at done
    · cases done
    · next taken registered =>
      split at done
      · next written =>
        cases done
        exact ⟨taken, registered, written⟩
      · cases done
  · rintro ⟨taken, registered, written⟩
    simp only [registered, written]

/-- A hook is registered and called by the next instruction, or nothing changes. -/
theorem allOrNothing_writeHook (hook : Hook) (assembler : Assembler) :
    AllOrNothing (writeHook hook) assembler (assembler.CanAssemble (.hook hook))
      fun index next => AddsHook hook index assembler next := by
  have slot := HookTable.allOrNothing_register hook assembler.hooks
  have instruction (index : Nat) (taken : HookTable) :=
    allOrNothing_request (hookRequest index) { assembler with hooks := taken }
  refine ⟨fun fault next failed => ?_, fun index next done => ?_, ?_⟩
  · obtain ⟨table, bus, hooks, offset⟩ := assembler
    simp only [writeHook] at failed
    split at failed
    · next registered =>
      cases failed
      rw [slot.fails registered]
    · next index taken registered =>
      split at failed
      · cases failed
      · next written =>
        cases failed
        -- The write left the hook in its slot, where it is found and taken back.
        cases (instruction index taken).fails written
        rw [HookTable.remove_of_register registered]
  · obtain ⟨taken, registered, written⟩ := writeHook_eq_ok_iff.mp done
    obtain ⟨writes, same⟩ := (instruction index taken).succeeds written
    exact ⟨⟨writes.table, writes.emits⟩, same ▸ slot.succeeds registered⟩
  · constructor
    · rintro ⟨index, next, done⟩
      obtain ⟨taken, registered, written⟩ := writeHook_eq_ok_iff.mp done
      exact ⟨slot.possible.mp ⟨index, taken, registered⟩,
        (instruction index taken).possible.mp ⟨(), next, written⟩⟩
    · rintro ⟨free, writable⟩
      obtain ⟨index, taken, registered⟩ := slot.possible.mpr free
      obtain ⟨_, next, written⟩ := (instruction index taken).possible.mpr writable
      exact ⟨index, next, writeHook_eq_ok_iff.mpr ⟨taken, registered, written⟩⟩

/-- An item is assembled, or nothing changes. -/
theorem allOrNothing_emit (item : Item) (assembler : Assembler) :
    AllOrNothing (emit item) assembler (assembler.CanAssemble item) fun slot next =>
      Assembles assembler item slot next := by
  have instruction {request : WriteRequest} (asked : item.request? = some request) :
      AllOrNothing (write request >>= fun _ => pure none) assembler
        (∃ request, item.request? = some request ∧
          assembler.table.Writable request assembler.offset assembler.bus)
        fun slot next => Assembles assembler item slot next := by
    simp only [asked, Option.some.injEq, exists_eq_left']
    exact (allOrNothing_request request assembler).bind_pure fun _ next done =>
      .instruction asked done.1 done.2
  cases item with
  | implied opcode => exact instruction rfl
  | constant8 opcode value => exact instruction rfl
  | constant16 opcode value => exact instruction rfl
  | blockMove opcode source destination => exact instruction rfl
  | operation opcode mode operand =>
    simp only [emit]
    split
    · next request found =>
      refine instruction ?_
      rw [Item.request?, found]
      rfl
    · next fault missing =>
      refine allOrNothing_throw fault assembler ?_
      rintro ⟨request, asked, -⟩
      rw [Item.request?, missing] at asked
      cases asked
  | hook hook => exact (allOrNothing_writeHook hook assembler).bind_pure fun _ _ => .hook

/-- From one assembler to the other items were assembled one behind another. -/
inductive AssemblesAll : Assembler → List Item → Assembler → Prop
  | nil (assembler : Assembler) : AssemblesAll assembler [] assembler
  | cons {assembler middle next : Assembler} {item : Item} {items : List Item} {slot : Option Nat}
      (first : Assembles assembler item slot middle) (rest : AssemblesAll middle items next) :
      AssemblesAll assembler (item :: items) next

/-- An assembly comes up to the first item that fails, and leaves what the items before it made. By
induction on the items. -/
theorem assemblesAll_of_assemble (items : List Item) (assembler : Assembler) :
    let (report, last) := assemble items assembler
    ∃ done left, items = done ++ left ∧ AssemblesAll assembler done last ∧
      match report.fault with
      | none => left = []
      | some fault => ∃ item rest, left = item :: rest ∧ emit item last = .error fault last := by
  induction items generalizing assembler with
  | nil => exact ⟨[], [], rfl, .nil assembler, rfl⟩
  | cons item rest ih =>
    have whole := allOrNothing_emit item assembler
    cases outcome : emit item assembler with
    | error fault next =>
      obtain rfl := whole.fails outcome
      simp only [assemble, outcome]
      exact ⟨[], item :: rest, rfl, .nil next, item, rest, rfl, outcome⟩
    | ok slot next =>
      obtain ⟨done, left, split, made, stopped⟩ := ih next
      simp only [assemble, outcome]
      exact ⟨item :: done, left, congrArg (item :: ·) split, .cons (whole.succeeds outcome) made,
        stopped⟩

/-- Whatever is asked for is done as a whole or not at all, whether an instruction is written on its
own or an assembler emits an item or a hook. It is done wherever there is an encoding for it, a byte
at each of its positions and, for a hook, a slot. Then the bytes of one instruction were written,
the offset has moved behind them, and a hook was put into the first slot that was free. Otherwise
every byte of the memory, the offset and the slots are as they were. -/
theorem allOrNothing (assembler : Assembler) :
    (∀ request, AllOrNothing (assembler.table.write assembler.offset request) assembler.bus
      (assembler.table.Writable request assembler.offset assembler.bus)
      fun behind next =>
        assembler.table.Emits request assembler.offset assembler.bus behind next) ∧
    (∀ item, AllOrNothing (emit item) assembler (assembler.CanAssemble item)
      fun slot next => Assembles assembler item slot next) ∧
    (∀ hook, AllOrNothing (writeHook hook) assembler (assembler.CanAssemble (.hook hook))
      fun index next => AddsHook hook index assembler next) :=
  ⟨fun request => assembler.table.allOrNothing_write assembler.offset request assembler.bus,
    fun item => allOrNothing_emit item assembler,
    fun hook => allOrNothing_writeHook hook assembler⟩

end Assembler

end W65C816
