import W65C816.Catalog.Standard
import W65C816.Proofs.Execution.Widths
import W65C816.Proofs.Memory.Places
import W65C816.Proofs.Registers.Wrapping

/-!
# Operations that change their operand in place

The shifts, the rotations and the counts up and down by one work on the accumulator or on a value in
memory. They are one function each, from the registers and the old value to the new value and the
flags, and `Registers.ChangesInPlace` is what these functions have in common. So both forms come to
the same: `Opcode.formsAgree`. A rotation turns the operand and the carry together, as one row of
bits, `Registers.rotateLeft_balance`; the other rotation turns it back, in either form.
-/

set_option autoImplicit false

namespace W65C816

open Addressing

/-! ## The results -/

namespace Registers

/-- A function of the registers and the value of an operand that yields the value in its place and
the registers with other flags. It leaves the mode and the widths alone and does not look at the
accumulator. -/
structure ChangesInPlace (result : Registers → UInt16 → UInt16 × Registers) : Prop where
  status : ∀ r old, (result r old).2 = { r with status := (result r old).2.status }
  sameMode : ∀ r old, SameMode r (result r old).2
  narrow : ∀ r old, r.memoryWidth.narrow (result r old).1 = (result r old).1
  congr : ∀ (r : Registers) a old, (result { r with a } old).1 = (result r old).1 ∧
    (result { r with a } old).2.status = (result r old).2.status

end Registers

/-- The operations that change their operand in place and tell of the result. -/
def Opcode.inPlace : List Opcode :=
  [.asl, .lsr, .rol, .ror, .inc, .dec]

/-- An operation that changes its operand in place does so in the same way in each mode. -/
theorem Opcode.changesInPlace {opcode : Opcode} (listed : opcode ∈ inPlace) :
    ∃ result, Registers.ChangesInPlace result ∧
      ∀ mode, opcode.effect? mode = some (.replace result) := by
  simp only [inPlace, List.mem_cons, List.not_mem_nil, or_false] at listed
  rcases listed with rfl | rfl | rfl | rfl | rfl | rfl <;> refine ⟨_, ?_, fun _ => rfl⟩ <;>
    exact ⟨fun _ _ => rfl, fun _ _ => ⟨rfl, rfl, rfl⟩, fun _ _ => Width.narrow_narrow _ _,
      fun _ _ _ => ⟨rfl, rfl⟩⟩

/-- The way in which an operation changes its operand is determined by its effect. -/
theorem Opcode.changesInPlace_of_effect? {opcode : Opcode} (listed : opcode ∈ inPlace)
    {result : Registers → UInt16 → UInt16 × Registers}
    (found : ∀ mode, opcode.effect? mode = some (.replace result)) :
    Registers.ChangesInPlace result := by
  obtain ⟨result', changes, found'⟩ := changesInPlace listed
  cases (found .direct).symm.trans (found' .direct)
  exact changes

namespace Registers

/-! ## Rotations -/

/-- A bit that is moved in, or none. -/
theorem toNat_movedIn (bit : Bool) (weight : UInt16) :
    (if bit then weight else 0).toNat = bit.toNat * weight.toNat := by
  cases bit <;> simp

variable {r s : Registers} {value : UInt16}

/-- A rotation to the left: the carry comes in below, and what goes out above is worth as much as
there are values. -/
theorem rotateLeft_balance (small : value.toNat < r.memoryWidth.limit) :
    (r.rotateLeft value).1.toNat + r.memoryWidth.limit * (r.rotateLeft value).2.status.carry.toNat =
      2 * value.toNat + r.status.carry.toNat := by
  have result : (r.rotateLeft value).1 =
      r.memoryWidth.narrow (value + value + if r.status.carry then 1 else 0) := rfl
  have carried : (r.rotateLeft value).2.status.carry = r.memoryWidth.sign value := rfl
  have single := Bool.toNat_le r.status.carry
  rw [result, carried, Width.toNat_sign small, Width.toNat_narrow, UInt16.toNat_add,
    UInt16.toNat_add, toNat_movedIn, UInt16.toNat_one]
  cases width : r.memoryWidth <;> rw [width] at small <;>
    simp only [Width.limit] at small ⊢ <;> omega

/-- A rotation to the right: the carry comes in above, where it is worth as much as there are
values, and the lowest bit goes out. -/
theorem rotateRight_balance (small : value.toNat < r.memoryWidth.limit) :
    2 * (r.rotateRight value).1.toNat + (r.rotateRight value).2.status.carry.toNat =
      value.toNat + r.memoryWidth.limit * r.status.carry.toNat := by
  have result : (r.rotateRight value).1 =
      r.memoryWidth.narrow (r.memoryWidth.narrow value / 2 +
        if r.status.carry then r.memoryWidth.highest else 0) := rfl
  have carried : (r.rotateRight value).2.status.carry.toNat = value.toNat % 2 :=
    (Nat.toNat_testBit _ 0).trans (by simp)
  have single := Bool.toNat_le r.status.carry
  have bound := value.toNat_lt
  rw [result, carried, Width.toNat_narrow, UInt16.toNat_add, UInt16.toNat_div, Width.toNat_narrow,
    toNat_movedIn]
  cases width : r.memoryWidth <;> rw [width] at small <;>
    simp only [Width.limit, Width.highest, UInt16.reduceToNat] at small ⊢ <;> omega

/-- The second function, working on what the first one has left, restores the value and the
carry. -/
def Reverses (second first : Registers → UInt16 → UInt16 × Registers) : Prop :=
  ∀ (r s : Registers) (value : UInt16), value.toNat < r.memoryWidth.limit →
    s.memoryWidth = r.memoryWidth → s.status.carry = (first r value).2.status.carry →
    (second s (first r value).1).1 = value ∧
      (second s (first r value).1).2.status.carry = r.status.carry

/-- Rotating right undoes rotating left. -/
theorem reverses_rotateRight : Reverses rotateRight rotateLeft := by
  intro r s value small width carry
  have turned := rotateLeft_balance small
  have bound : (r.rotateLeft value).1.toNat < s.memoryWidth.limit := by
    rw [width]
    exact Width.narrow_lt _ _
  have back := rotateRight_balance bound
  rw [width, carry, turned] at back
  rw [← UInt16.toNat_inj]
  generalize (s.rotateRight (r.rotateLeft value).1).2.status.carry = out at back ⊢
  generalize r.status.carry = carry at back ⊢
  cases out <;> cases carry <;>
    simp only [Bool.toNat_false, Bool.toNat_true, reduceCtorEq, and_true, and_false] at back ⊢ <;>
    omega

/-- Rotating left undoes rotating right. -/
theorem reverses_rotateLeft : Reverses rotateLeft rotateRight := by
  intro r s value small width carry
  have turned := rotateRight_balance small
  have bound : (r.rotateRight value).1.toNat < s.memoryWidth.limit := by
    rw [width]
    exact Width.narrow_lt _ _
  have back := rotateLeft_balance bound
  rw [width, carry, turned] at back
  have last : (s.rotateLeft (r.rotateRight value).1).1.toNat < r.memoryWidth.limit := by
    rw [← width]
    exact Width.narrow_lt _ _
  -- A value below the limit and a multiple of the limit add up in one way only.
  rw [← UInt16.toNat_inj]
  generalize (s.rotateLeft (r.rotateRight value).1).2.status.carry = out at back ⊢
  generalize r.status.carry = carry at back ⊢
  cases out <;> cases carry <;>
    simp only [Bool.toNat_false, Bool.toNat_true, reduceCtorEq, and_true, and_false] at back ⊢ <;>
    omega

/-! ## The accumulator -/

variable {result : Registers → UInt16 → UInt16 × Registers}

/-- An operation on the accumulator changes the part of it that counts, and flags. -/
theorem ChangesInPlace.replaceAccumulator_eq (h : ChangesInPlace result) (r : Registers) :
    Effect.replaceAccumulator result r = { r with
      a := r.memoryWidth.replace r.a (result r r.accumulator).1
      status := (result r r.accumulator).2.status } := by
  have width : (result r r.accumulator).2.memoryWidth = r.memoryWidth :=
    congrArg Widths.memory (h.sameMode r r.accumulator).widths_eq
  simp only [Effect.replaceAccumulator, setAccumulator, width]
  rw [h.status r r.accumulator]

/-- The accumulator keeps its width when it is replaced. -/
theorem ChangesInPlace.memoryWidth_replaceAccumulator (h : ChangesInPlace result)
    (r : Registers) : (Effect.replaceAccumulator result r).memoryWidth = r.memoryWidth := by
  have same := h.sameMode r r.accumulator
  have whole : SameMode r (Effect.replaceAccumulator result r) := by
    rw [h.replaceAccumulator_eq]
    exact ⟨rfl, same.memory8, same.index8⟩
  exact congrArg Widths.memory whole.widths_eq

/-- The accumulator is replaced by the result. -/
theorem ChangesInPlace.accumulator_replaceAccumulator (h : ChangesInPlace result)
    (r : Registers) :
    (Effect.replaceAccumulator result r).accumulator = (result r r.accumulator).1 := by
  rw [accumulator, h.memoryWidth_replaceAccumulator, h.replaceAccumulator_eq]
  exact (Width.narrow_replace _ _ _).trans (h.narrow r r.accumulator)

/-- The accumulator holds a value of its width that it is set to. -/
theorem accumulator_setAccumulator {r : Registers} {value : UInt16}
    (counts : r.memoryWidth.narrow value = value) :
    (r.setAccumulator value).accumulator = value :=
  (Width.narrow_replace _ _ _).trans counts

/-- With a value in the accumulator, the operation does with it what it does with that value
anywhere. -/
theorem ChangesInPlace.replaceAccumulator_setAccumulator (h : ChangesInPlace result)
    {r : Registers} {value : UInt16} (counts : r.memoryWidth.narrow value = value) :
    (Effect.replaceAccumulator result (r.setAccumulator value)).accumulator = (result r value).1 ∧
      (Effect.replaceAccumulator result (r.setAccumulator value)).status =
        (result r value).2.status := by
  obtain ⟨same, status⟩ := h.congr r (r.memoryWidth.replace r.a value) value
  constructor
  · rw [h.accumulator_replaceAccumulator, accumulator_setAccumulator counts]
    exact same
  · rw [h.replaceAccumulator_eq, accumulator_setAccumulator counts]
    exact status

/-- At a width of one byte the high byte of the accumulator stays. -/
theorem ChangesInPlace.high_replaceAccumulator (h : ChangesInPlace result) {r : Registers}
    (narrow : r.memoryWidth = .byte) :
    Word.high (Effect.replaceAccumulator result r).a = Word.high r.a := by
  rw [h.replaceAccumulator_eq, narrow]
  exact Word.high_join _ _

/-- The reverse operation on the accumulator restores all of it, and the carry. -/
theorem Reverses.replaceAccumulator {first second : Registers → UInt16 → UInt16 × Registers}
    (reverses : Reverses second first) (h : ChangesInPlace first) (h' : ChangesInPlace second)
    (r : Registers) :
    (Effect.replaceAccumulator second (Effect.replaceAccumulator first r)).a = r.a ∧
      (Effect.replaceAccumulator second (Effect.replaceAccumulator first r)).status.carry =
        r.status.carry := by
  have width := h.memoryWidth_replaceAccumulator r
  have carry : (Effect.replaceAccumulator first r).status.carry =
      (first r r.accumulator).2.status.carry := by rw [h.replaceAccumulator_eq]
  obtain ⟨value, restored⟩ := reverses r _ r.accumulator (Width.narrow_lt _ _) width carry
  rw [h'.replaceAccumulator_eq, width, h.accumulator_replaceAccumulator]
  refine ⟨?_, restored⟩
  rw [value, h.replaceAccumulator_eq]
  show r.memoryWidth.replace (r.memoryWidth.replace r.a _) (r.memoryWidth.narrow r.a) = r.a
  rw [Width.replace_replace, Width.replace_narrow, Width.replace_self]

end Registers

/-! ## Memory operands -/

namespace Effect

variable {result : Registers → UInt16 → UInt16 × Registers} {mode : Mode} {operands : Operands}
  {core next : Core}

/-- What was put in the place of a memory operand was written where the old value was read. -/
theorem exists_of_perform_replace (inMemory : mode ≠ .accumulator)
    (done : (Effect.replace result).perform mode operands core = .ok () next) :
    ∃ address old, effectiveAddress mode operands.first core.registers core.bus = .ok address ∧
      core.bus.readAt core.registers.memoryWidth address = .ok old ∧
      next.registers = (result core.registers old).2 ∧
      Bus.writeAt core.registers.memoryWidth address (result core.registers old).1 core.bus =
        .ok () next.bus := by
  simp only [perform, if_neg inMemory, replaceMemory_apply] at done
  split at done
  · cases done
  · next address found =>
    split at done
    · cases done
    · next old read =>
      obtain ⟨bus, written, rfl⟩ := Action.place_eq_ok_iff.mp done
      exact ⟨address, old, found, read, rfl, written⟩

/-- Where the old value can be read the new one is written. -/
theorem exists_perform_replace (inMemory : mode ≠ .accumulator) {address : UInt32} {old : UInt16}
    (reached : effectiveAddress mode operands.first core.registers core.bus = .ok address)
    (read : core.bus.readAt core.registers.memoryWidth address = .ok old) :
    ∃ bus, (Effect.replace result).perform mode operands core =
        .ok () ⟨(result core.registers old).2, bus⟩ ∧
      Bus.writeAt core.registers.memoryWidth address (result core.registers old).1 core.bus =
        .ok () bus := by
  obtain ⟨bus, written⟩ := Bus.exists_writeAt_of_readAt read (result core.registers old).1
  refine ⟨bus, ?_, written⟩
  simp only [perform, if_neg inMemory, replaceMemory_apply, reached, read, written, Action.place]

end Effect

namespace Opcode

/-- The form of an operation on the accumulator always succeeds. Of the registers it changes the
part of the accumulator that counts, and flags. -/
def KeepsToAccumulator (opcode : Opcode) : Prop :=
  ∀ (code : UInt8) (operands : Operands) (r : Registers) (bus : Bus),
    ∃ s, (Instruction.mk code opcode .accumulator).execute operands ⟨r, bus⟩ = .ok () ⟨s, bus⟩ ∧
      s = { r with a := s.a, status := s.status } ∧
      (r.memoryWidth = .byte → Word.high s.a = Word.high r.a)

/-- Wherever the operand is in memory, it becomes what the accumulator would become if it held the
operand, with the same flags. No other byte and no other register changes. -/
def FormsAgree (opcode : Opcode) : Prop :=
  ∀ (code code' : UInt8) (mode : Mode) (operands operands' : Operands) (r : Registers) (bus : Bus)
    (address : UInt32) (value : UInt16), mode ≠ .accumulator →
    effectiveAddress mode operands.first r bus = .ok address →
    bus.readAt r.memoryWidth address = .ok value →
    ∃ s next, (Instruction.mk code opcode .accumulator).execute operands'
          ⟨r.setAccumulator value, bus⟩ = .ok () ⟨s, bus⟩ ∧
      (Instruction.mk code' opcode mode).execute operands ⟨r, bus⟩ =
        .ok () ⟨{ r with status := s.status }, next⟩ ∧
      next.readAt r.memoryWidth address = .ok s.accumulator ∧
      ∀ i, (∀ k < r.memoryWidth.bytes, bus.index? (address + UInt32.ofNat k) ≠ some i) →
        next.memory.byte i = bus.memory.byte i

/-- After the first operation the second one on the same operand restores the operand and the carry.
In the accumulator the rest of it is restored as well, and in memory the whole bus is. -/
def Undoes (second first : Opcode) : Prop :=
  (∀ (code code' : UInt8) (operands operands' : Operands) (r : Registers) (bus : Bus),
    ∃ s t, (Instruction.mk code first .accumulator).execute operands ⟨r, bus⟩ =
        .ok () ⟨s, bus⟩ ∧
      (Instruction.mk code' second .accumulator).execute operands' ⟨s, bus⟩ = .ok () ⟨t, bus⟩ ∧
      t.a = r.a ∧ t.status.carry = r.status.carry) ∧
  ∀ (code code' : UInt8) (mode : Mode) (operands : Operands) (r : Registers) (bus : Bus)
    (address : UInt32) (value : UInt16), (first, mode) ∈ standardEncodings → mode ≠ .accumulator →
    effectiveAddress mode operands.first r bus = .ok address →
    bus.readAt r.memoryWidth address = .ok value →
    ∃ s middle t, (Instruction.mk code first mode).execute operands ⟨r, bus⟩ =
        .ok () ⟨s, middle⟩ ∧
      (Instruction.mk code' second mode).execute operands ⟨s, middle⟩ = .ok () ⟨t, bus⟩ ∧
      t = { r with status := t.status } ∧ t.status.carry = r.status.carry

variable {opcode : Opcode} {mode : Mode} {operands : Operands} {r : Registers} {bus : Bus}
  {result : Registers → UInt16 → UInt16 × Registers}

/-- In the accumulator the operation always succeeds, and it leaves the bus alone. -/
theorem execute_accumulator (found : ∀ mode, opcode.effect? mode = some (.replace result))
    (code : UInt8) (operands : Operands) (r : Registers) (bus : Bus) :
    (Instruction.mk code opcode .accumulator).execute operands ⟨r, bus⟩ =
      .ok () ⟨Effect.replaceAccumulator result r, bus⟩ := by
  simp only [Instruction.execute, found]
  rfl

/-- In memory the operation succeeds once the value was read, since it writes to where it has
read. -/
theorem exists_execute_memory (found : ∀ mode, opcode.effect? mode = some (.replace result))
    (inMemory : mode ≠ .accumulator) {address : UInt32} {value : UInt16}
    (reached : effectiveAddress mode operands.first r bus = .ok address)
    (read : bus.readAt r.memoryWidth address = .ok value) :
    ∃ next, Bus.writeAt r.memoryWidth address (result r value).1 bus = .ok () next ∧
      ∀ code, (Instruction.mk code opcode mode).execute operands ⟨r, bus⟩ =
        .ok () ⟨(result r value).2, next⟩ := by
  obtain ⟨next, done, written⟩ :=
    @Effect.exists_perform_replace result mode operands ⟨r, bus⟩ inMemory _ _ reached read
  refine ⟨next, written, fun code => ?_⟩
  simp only [Instruction.execute, found]
  exact done

/-- An operation in place changes nothing but the accumulator and the flags that tell of it. -/
theorem keepsToAccumulator (listed : opcode ∈ inPlace) : opcode.KeepsToAccumulator := by
  intro code operands r bus
  obtain ⟨result, changes, found⟩ := opcode.changesInPlace listed
  refine ⟨_, execute_accumulator found code operands r bus, ?_, changes.high_replaceAccumulator⟩
  rw [changes.replaceAccumulator_eq]

/-- An operation in place does in memory what it does in the accumulator. -/
theorem formsAgree (listed : opcode ∈ inPlace) : opcode.FormsAgree := by
  intro code code' mode operands operands' r bus address value inMemory reached read
  obtain ⟨result, changes, found⟩ := opcode.changesInPlace listed
  obtain ⟨next, written, done⟩ := exists_execute_memory found inMemory reached read
  obtain ⟨same, status⟩ :=
    changes.replaceAccumulator_setAccumulator (r := r) (Bus.narrow_of_readAt read)
  refine ⟨_, next, execute_accumulator found code operands' _ bus, ?_, ?_, fun i apart =>
    Bus.byte_of_writeAt written apart⟩
  · rw [done, status, ← changes.status]
  · rw [same, ← changes.narrow]
    exact Bus.readAt_of_writeAt written

/-- The modes in which operands in memory are changed. -/
theorem mode_of_inPlace (listed : opcode ∈ inPlace) (standard : (opcode, mode) ∈ standardEncodings)
    (inMemory : mode ≠ .accumulator) :
    mode ∈ [Mode.direct, .directIndexedX, .absolute, .absoluteIndexedX] := by
  have table : ∀ encoding ∈ standardEncodings, encoding.1 ∈ inPlace →
      encoding.2 ≠ .accumulator →
      encoding.2 ∈ [Mode.direct, .directIndexedX, .absolute, .absoluteIndexedX] := by
    decide +kernel
  exact table _ standard listed inMemory

/-- In these modes the address depends neither on the memory nor on the flags that are changed. -/
theorem effectiveAddress_of_sameMode {status : Flags} (operand : UInt32)
    (steady : mode ∈ [Mode.direct, .directIndexedX, .absolute, .absoluteIndexedX])
    (same : Registers.SameMode r { r with status }) (bus bus' : Bus) :
    effectiveAddress mode operand { r with status } bus' = effectiveAddress mode operand r bus := by
  have x : Registers.xIndex { r with status } = r.xIndex :=
    congrArg (fun widths : Widths => widths.index.narrow r.x) same.widths_eq
  simp only [List.mem_cons, List.not_mem_nil, or_false] at steady
  rcases steady with rfl | rfl | rfl | rfl <;> simp only [effectiveAddress, x] <;> rfl

/-- An operation in place undoes another one if its result is the reverse. -/
theorem undoes_of_reverses {first second : Opcode}
    {result result' : Registers → UInt16 → UInt16 × Registers}
    (listed : first ∈ inPlace)
    (found : ∀ mode, first.effect? mode = some (.replace result))
    (found' : ∀ mode, second.effect? mode = some (.replace result'))
    (changes : Registers.ChangesInPlace result) (changes' : Registers.ChangesInPlace result')
    (reverses : Registers.Reverses result' result) : second.Undoes first := by
  constructor
  · intro code code' operands operands' r bus
    obtain ⟨whole, carry⟩ := reverses.replaceAccumulator changes changes' r
    exact ⟨_, _, execute_accumulator found code operands r bus,
      execute_accumulator found' code' operands' _ bus, whole, carry⟩
  · intro code code' mode operands r bus address value standard inMemory reached read
    have steady := mode_of_inPlace listed standard inMemory
    obtain ⟨middle, written, done⟩ := exists_execute_memory found inMemory reached read
    have same := changes.sameMode r value
    have width : (result r value).2.memoryWidth = r.memoryWidth :=
      congrArg Widths.memory same.widths_eq
    have again : effectiveAddress mode operands.first (result r value).2 middle = .ok address := by
      rw [changes.status] at same ⊢
      rw [effectiveAddress_of_sameMode _ steady same bus, reached]
    have held : middle.readAt (result r value).2.memoryWidth address = .ok (result r value).1 := by
      rw [width, ← changes.narrow]
      exact Bus.readAt_of_writeAt written
    obtain ⟨last, written', done'⟩ := exists_execute_memory found' inMemory again held
    have counts : value.toNat < r.memoryWidth.limit := by
      rw [← Bus.narrow_of_readAt read]
      exact Width.narrow_lt _ _
    obtain ⟨restored, carry⟩ := reverses r _ value counts width rfl
    rw [width, restored] at written'
    obtain rfl := Bus.eq_of_writeAt_writeAt read written written'
    refine ⟨_, middle, _, done code, done' code', ?_, carry⟩
    rw [changes'.status, changes.status]

end Opcode

/-- The shifts, the rotations, `INC` and `DEC` do the same to an operand in memory as to the
accumulator, at the width in force: they store the result and set the flags that come of the old
value, and change nothing else. On the accumulator they keep the high byte where it does not count.
Each rotation undoes the other one on the same operand, in the accumulator and in memory. -/
theorem memory_form_agrees_with_accumulator_form :
    (∀ opcode ∈ Opcode.inPlace, opcode.KeepsToAccumulator ∧ opcode.FormsAgree) ∧
      Opcode.Undoes .ror .rol ∧ Opcode.Undoes .rol .ror := by
  have left (mode : Mode) : Opcode.rol.effect? mode = some (.replace Registers.rotateLeft) := rfl
  have right (mode : Mode) : Opcode.ror.effect? mode = some (.replace Registers.rotateRight) := rfl
  have changesLeft := Opcode.changesInPlace_of_effect? (by decide) left
  have changesRight := Opcode.changesInPlace_of_effect? (by decide) right
  refine ⟨fun opcode listed => ⟨Opcode.keepsToAccumulator listed, Opcode.formsAgree listed⟩, ?_, ?_⟩
  · exact Opcode.undoes_of_reverses (by decide) left right changesLeft changesRight
      Registers.reverses_rotateRight
  · exact Opcode.undoes_of_reverses (by decide) right left changesRight changesLeft
      Registers.reverses_rotateLeft

/-- A rotation to the left of a word whose highest bit is set, with the carry set, and back. -/
theorem memory_form_agrees_with_accumulator_form_word :
    let r : Registers := { emulation := false, status := { carry := true } }
    let view := View.whole Memory.least
    let bus := Bus.flat (view.setAll (view.start + 0x10) [0x01, 0x80])
    let operands : Operands := { first := 0x10, length := 1 }
    bus.readAt r.memoryWidth 0x10 = .ok 0x8001 ∧
      ∃ middle, (Instruction.mk 0x26 .rol .direct).execute operands ⟨r, bus⟩ =
          .ok () ⟨r, middle⟩ ∧
        middle.readAt .word 0x10 = .ok 3 ∧
        ∃ t, (Instruction.mk 0x66 .ror .direct).execute operands ⟨r, middle⟩ = .ok () ⟨t, bus⟩ ∧
          t.status.carry = true := by
  intro r view bus operands
  have size : view.length = 0x200 := Memory.size_least
  have bytes : [Word.low 0x8001, Word.high 0x8001] = [0x01, 0x80] := by decide
  have place : UInt32.toNat 0x10 = 0x10 := rfl
  have word : (view.setAll (view.start + 0x10) [0x01, 0x80]).read16 0x10 = .ok 0x8001 := by
    rw [View.read16_eq_ok_iff, bytes, place]
    apply View.holds_setAll
    rw [size]
    decide
  have read : bus.readAt r.memoryWidth 0x10 = .ok 0x8001 := word
  clear_value bus
  obtain ⟨forms, undoes, -⟩ := memory_form_agrees_with_accumulator_form
  obtain ⟨s, next, accumulator, memory, stored, -⟩ := (forms .rol (by decide)).2 0x2A 0x26 .direct
    operands {} r bus 0x10 0x8001 nofun rfl read
  obtain ⟨s', middle, t, first, second, -, carry⟩ := undoes.2 0x26 0x66 .direct operands r bus 0x10
    0x8001 (by decide) nofun rfl read
  obtain ⟨rfl, rfl⟩ : { r with status := s.status } = s' ∧ next = middle := by
    rw [memory] at first
    cases first
    exact ⟨rfl, rfl⟩
  have same : s = Effect.replaceAccumulator Registers.rotateLeft (r.setAccumulator 0x8001) :=
    congrArg (fun outcome => (Action.stateAfter outcome).registers)
      (accumulator.symm.trans (Opcode.execute_accumulator (fun _ => rfl) 0x2A {} _ bus))
  have status : s.status = r.status := by
    rw [same]
    decide
  have value : s.accumulator = 3 := by
    rw [same]
    decide
  rw [status] at memory second
  rw [value] at stored
  exact ⟨read, next, memory, stored, t, second, carry⟩

end W65C816
