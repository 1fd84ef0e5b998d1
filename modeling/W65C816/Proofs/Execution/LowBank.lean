import W65C816.Proofs.Execution.Outcomes
import W65C816.Proofs.Memory.Banks
import W65C816.Proofs.Memory.Faults

/-!
# Accesses in the first bank

Addresses in the direct page and relative to the stack are words, so they are in the first bank. An
access of several bytes that begins at the last of them runs on into the second bank if the view
extends so far: `View.Crosses`. Short of that, pointers are the same on all views with the same
first bank, and so is everything that a load, a store or a replacement does:
`Exec.KeepsToLowBank`. That nothing is read outside of the bank is put as that nothing depends on
it, and what crosses the end of the bank is told from the rest by a view with another byte behind
it.
-/

set_option autoImplicit false

namespace W65C816

open Addressing

/-! ## Views -/

namespace View

/-- The number of positions that the first bank of a view has. -/
def lowBank (view : View) : Nat :=
  min view.length Address.bankSize

/-- An access that begins in the first bank ends in the second, and the view extends so far. -/
def Crosses (view : View) (offset : UInt16) (count : Nat) : Prop :=
  Address.bankSize < offset.toNat + count ∧ offset.toNat + count ≤ view.length

variable {view other : View} {offset : UInt16} {count : Nat}

/-- An access that does not cross the end of the bank and ends in the view ends in the part of the
first bank that the view has. -/
theorem le_lowBank_of_not_crosses (inside : ¬ view.Crosses offset count)
    (room : offset.toUInt32.toNat + count ≤ view.length) :
    offset.toUInt32.toNat + count ≤ view.lowBank := by
  rw [UInt16.toNat_toUInt32] at room ⊢
  have within : ¬ Address.bankSize < offset.toNat + count := fun beyond => inside ⟨beyond, room⟩
  rw [lowBank]
  omega

/-- A byte of the second bank is none of the first. -/
theorem mirrors_spoiled (view : View) :
    Mirrors view.lowBank view (view.spoiled Address.bankSize) where
  length := (view.length_spoiled _).symm
  same := by
    intro p below
    have apart : p ≠ Address.bankSize := by
      rw [lowBank] at below
      omega
    exact (byteAt_spoiled_of_ne apart).symm

/-- A row that stays in the first bank is written in the same way whatever is behind the bank. -/
theorem simulates_lowRow {origin origin' : View} (values : List UInt8)
    (inside : ¬ origin.Crosses offset values.length) :
    Action.Simulates (Twins origin.lowBank origin origin') (write offset.toUInt32 values)
      (write offset.toUInt32 values) := by
  apply simulates_write (Nat.min_le_left _ _)
  intro room
  exact le_lowBank_of_not_crosses inside (by omega)

/-- What is read across the end of the bank depends on a byte of the second bank. -/
theorem Crosses.readNumber_ne (crosses : view.Crosses offset count) (short : count ≤ 3) :
    ∃ value value', value ≠ value' ∧
      Bus.readNumber (.flat view) offset.toUInt32 count = .ok value ∧
      Bus.readNumber (.flat (view.spoiled Address.bankSize)) offset.toUInt32 count =
        .ok value' := by
  obtain ⟨beyond, room⟩ := crosses
  have start : offset.toUInt32.toNat = offset.toNat := offset.toNat_toUInt32
  have below : offset.toNat < Address.bankSize := offset.toNat_lt
  obtain ⟨i, last⟩ := Nat.exists_eq_add_of_le (Nat.le_of_lt below)
  rw [last, ← start]
  exact readNumber_spoiled short (by omega) (by omega)

end View

/-! ## Pointers -/

namespace Addressing

/-- Where a mode fetches a pointer from the first bank, and how many bytes that takes. -/
def pointer? (mode : Mode) (operand : UInt32) (r : Registers) : Option (UInt16 × Nat) :=
  match mode with
  | .directIndirect | .directIndirectIndexed => some (direct r operand, 2)
  | .directIndexedIndirect => some (direct r operand + r.xIndex, 2)
  | .directIndirectLong | .directIndirectIndexedLong => some (direct r operand, 3)
  | .stackRelativeIndirectIndexed => some (stackRelative r operand, 2)
  | _ => none

/-- The address that a pointer leads to. -/
def follow (mode : Mode) (r : Registers) (pointer : UInt32) : UInt32 :=
  match mode with
  | .directIndirect | .directIndexedIndirect => absolute r (Address.offset pointer)
  | .directIndirectIndexed | .stackRelativeIndirectIndexed =>
    indexed (absolute r (Address.offset pointer)) r.yIndex
  | .directIndirectIndexedLong => indexed pointer r.yIndex
  | _ => pointer

/-- Indexing tells addresses of the address space apart. -/
theorem indexed_inj {p q : UInt32} {index : UInt16} (hp : Address.wrap p = p)
    (hq : Address.wrap q = q) (same : indexed p index = indexed q index) : p = q := by
  have weights := congrArg UInt32.toNat same
  have small := congrArg UInt32.toNat hp
  have small' := congrArg UInt32.toNat hq
  have bound := index.toNat_lt
  simp only [indexed, Address.toNat_wrap, Address.space, UInt32.toNat_add,
    UInt16.toNat_toUInt32] at weights small small'
  apply UInt32.toNat.inj
  omega

/-- Absolute addressing tells offsets apart. -/
theorem absolute_inj {r : Registers} {p q : UInt16} (same : absolute r p = absolute r q) :
    p = q := by
  have offsets := congrArg Address.offset same
  rwa [absolute, absolute, Address.offset_ofBank, Address.offset_ofBank] at offsets

variable {mode : Mode} {operand : UInt32} {r : Registers} {offset : UInt16} {count : Nat}

/-- A mode with a pointer reads it and follows it. -/
theorem effectiveAddress_of_pointer (h : pointer? mode operand r = some (offset, count))
    (bus : Bus) :
    effectiveAddress mode operand r bus =
      (do
        let pointer ← bus.readNumber offset.toUInt32 count
        pure (follow mode r pointer)) := by
  cases mode <;> cases h <;>
    simp [effectiveAddress, follow, Bus.readNumber, offset_toUInt32]

/-- A pointer has at most three bytes. -/
theorem count_of_pointer (h : pointer? mode operand r = some (offset, count)) : count ≤ 3 := by
  cases mode <;> cases h <;> decide

/-- Different pointers lead to different addresses. -/
theorem follow_inj (h : pointer? mode operand r = some (offset, count)) {p q : UInt32}
    (hp : lowBytes p count = p) (hq : lowBytes q count = q)
    (same : follow mode r p = follow mode r q) : p = q := by
  have words (hp : lowBytes p 2 = p) (hq : lowBytes q 2 = q)
      (offsets : Address.offset p = Address.offset q) : p = q := by
    rw [← hp, ← hq, ← toUInt32_offset, ← toUInt32_offset, offsets]
  have base (p : UInt16) : Address.wrap (absolute r p) = absolute r p := Address.wrap_ofBank _ _
  cases mode with
  | directIndirect | directIndexedIndirect =>
    cases h
    exact words hp hq (absolute_inj same)
  | directIndirectIndexed | stackRelativeIndirectIndexed =>
    cases h
    exact words hp hq (absolute_inj (indexed_inj (base _) (base _) same))
  | directIndirectLong => exact same
  | directIndirectIndexedLong =>
    cases h
    exact indexed_inj hp hq same
  | _ => cases h

/-- A pointer that crosses the end of the bank leads elsewhere when the byte behind the bank is
another one. -/
theorem effectiveAddress_ne_of_crosses (h : pointer? mode operand r = some (offset, count))
    {view : View} (crosses : view.Crosses offset count) :
    effectiveAddress mode operand r (.flat view) ≠
      effectiveAddress mode operand r (.flat (view.spoiled Address.bankSize)) := by
  have short := count_of_pointer h
  intro same
  obtain ⟨value, value', different, first, second⟩ := crosses.readNumber_ne short
  rw [effectiveAddress_of_pointer h, effectiveAddress_of_pointer h, first, second] at same
  obtain ⟨small, -⟩ := (Bus.readNumber_flat_eq_ok_iff _ _ _ short).mp first
  obtain ⟨small', -⟩ := (Bus.readNumber_flat_eq_ok_iff _ _ _ short).mp second
  exact different (follow_inj h small small' (Except.ok.inj same))

/-- The address that a pointer leads to is the same on all views with the same first bank, exactly
if the pointer does not cross its end. -/
theorem effectiveAddress_eq_iff (h : pointer? mode operand r = some (offset, count)) (view : View) :
    (∀ other, View.Mirrors view.lowBank view other →
        effectiveAddress mode operand r (.flat view) =
          effectiveAddress mode operand r (.flat other)) ↔
      ¬ view.Crosses offset count := by
  constructor
  · intro same crosses
    exact effectiveAddress_ne_of_crosses h crosses (same _ view.mirrors_spoiled)
  · intro inside other mirrors
    have short := count_of_pointer h
    rw [effectiveAddress_of_pointer h, effectiveAddress_of_pointer h,
      mirrors.readNumber_eq short (View.le_lowBank_of_not_crosses inside)]

end Addressing

/-! ## Accesses of a width -/

/-- Flat buses with the same first bank, which differ from two origins inside of it at most. -/
inductive Bus.LowTwins (origin origin' : View) : Bus → Bus → Prop
  | flat {view other : View} (h : View.Twins origin.lowBank origin origin' view other) :
    LowTwins origin origin' (.flat view) (.flat other)

namespace Bus

variable {origin origin' : View} {bus other : Bus} {offset : UInt16} {width : Width}

/-- What is read at a width is the offset of a number of its bytes. -/
theorem readAt_eq (bus : Bus) (width : Width) (position : UInt32) :
    bus.readAt width position =
      (do
        let number ← bus.readNumber position width.bytes
        pure (Address.offset number)) := by
  cases width with
  | byte =>
    simp [readAt, readNumber, Width.bytes, Address.offset]
  | word => simp [readAt, readNumber, Width.bytes, offset_toUInt32]

/-- A value that stays in the first bank is read alike whatever is behind it. -/
theorem LowTwins.readAt_eq (h : LowTwins origin origin' bus other)
    (inside : ¬ origin.Crosses offset width.bytes) :
    bus.readAt width offset.toUInt32 = other.readAt width offset.toUInt32 := by
  obtain ⟨twins⟩ := h
  have length := twins.first.length
  rw [Bus.readAt_eq, Bus.readAt_eq, twins.mirrors.readNumber_eq]
  · exact Nat.le_succ_of_le width.bytes_le
  · rw [length]
    exact View.le_lowBank_of_not_crosses inside

/-- A value that stays in the first bank is written alike whatever is behind it. -/
theorem simulates_writeAt (inside : ¬ origin.Crosses offset width.bytes) (value : UInt16) :
    Action.Simulates (LowTwins origin origin') (writeAt width offset.toUInt32 value)
      (writeAt width offset.toUInt32 value) := by
  rintro _ _ ⟨twins⟩
  cases width with
  | byte =>
    have hmatch := View.simulates_lowRow [Word.low value] inside _ _ twins
    exact hmatch.place .flat
  | word =>
    have hmatch := View.simulates_lowRow [Word.low value, Word.high value] inside _ _ twins
    exact hmatch.place .flat

end Bus

namespace View

variable {view : View} {offset : UInt16} {width : Width}

/-- Only a word can cross the end of the bank. -/
theorem Crosses.eq_word (crosses : view.Crosses offset width.bytes) : width = .word := by
  cases width with
  | byte =>
    have below := offset.toNat_lt
    have beyond := crosses.1
    simp only [Address.bankSize, Width.bytes] at beyond
    omega
  | word => rfl

/-- A value that crosses the end of the bank depends on a byte of the second bank. -/
theorem Crosses.readAt_ne (crosses : view.Crosses offset width.bytes) :
    ∃ value value', value ≠ value' ∧
      (Bus.flat view).readAt width offset.toUInt32 = .ok value ∧
      (Bus.flat (view.spoiled Address.bankSize)).readAt width offset.toUInt32 = .ok value' := by
  obtain rfl := crosses.eq_word
  obtain ⟨value, value', different, first, second⟩ := crosses.readNumber_ne (by decide)
  refine ⟨Address.offset value, Address.offset value', fun same => ?_, ?_, ?_⟩
  · obtain ⟨small, -⟩ := (Bus.readNumber_flat_eq_ok_iff _ _ _ (by decide)).mp first
    obtain ⟨small', -⟩ := (Bus.readNumber_flat_eq_ok_iff _ _ _ (by decide)).mp second
    apply different
    rw [← small, ← small']
    change lowBytes value 2 = lowBytes value' 2
    rw [← toUInt32_offset, ← toUInt32_offset, same]
  · rw [Bus.readAt_eq, first]
    rfl
  · rw [Bus.readAt_eq, second]
    rfl

/-- What is written across the end of the bank changes a byte of the second bank. -/
theorem Crosses.writeAt_eq (crosses : view.Crosses offset width.bytes) (value : UInt16) :
    ∃ next, Bus.writeAt width offset.toUInt32 value (.flat view) = .ok () (.flat next) ∧
      next.memory.byte (view.start + Address.bankSize) = Word.high value := by
  obtain rfl := crosses.eq_word
  obtain ⟨beyond, room⟩ := crosses
  simp only [Width.bytes, Address.bankSize] at beyond room ⊢
  have start : offset.toUInt32.toNat = 65535 := by
    have below := offset.toNat_lt
    rw [UInt16.toNat_toUInt32]
    omega
  have located : view.locate offset.toUInt32 2 = .ok (view.start + 65535) := by
    rw [View.locate_of_room Nat.two_pos (by rwa [UInt16.toNat_toUInt32]), start]
  refine ⟨view.setAll (view.start + 65535) [Word.low value, Word.high value], ?_, ?_⟩
  · have written : View.write16 offset.toUInt32 value view =
        .ok () (view.setAll (view.start + 65535) [Word.low value, Word.high value]) := by
      unfold write16 write
      simp only [List.length_cons, List.length_nil, located]
    exact congrArg (Action.place Bus.flat) written
  · have room' := view.end_le
    rw [UInt16.toNat_toUInt32] at start
    exact Memory.byte_setAll view.memory (view.start + 65535) [Word.low value, Word.high value]
      (by rw [List.length_cons, List.length_singleton]; omega) Nat.one_lt_two

end View

/-! ## Loads and stores -/

namespace Effect

/-- Loads a value of a width and changes the registers by it. -/
def loadAt (width : Width) (address : UInt32) (change : Registers → UInt16 → Registers) :
    Exec Unit := do
  let value ← Exec.ask fun _ bus => bus.readAt width address
  Exec.alter fun r => change r value

/-- Reads a value of a width, changes the registers, and writes another value. -/
def replaceAt (width : Width) (address : UInt32) (result : UInt16 → UInt16 × Registers) :
    Exec Unit := do
  let old ← Exec.ask fun _ bus => bus.readAt width address
  let (new, changed) := result old
  Exec.alter fun _ => changed
  Exec.onBus (Bus.writeAt width address new)

variable {mode : Mode} {operands : Operands} {r : Registers} {bus : Bus} {address : UInt32}

/-- Reading an operand goes to its effective address. -/
theorem perform_read (width : Registers → Width) (change : Registers → UInt16 → Registers)
    (addressed : mode ≠ .immediate)
    (h : effectiveAddress mode operands.first r bus = .ok address) :
    (Effect.read width change).perform mode operands ⟨r, bus⟩ =
      loadAt (width r) address change ⟨r, bus⟩ := by
  have found : target mode operands.first r bus = .ok (.address address) := by
    unfold target
    rw [h]
    cases mode <;> first | rfl | exact absurd rfl addressed
  have resolved : Exec.ask (target mode operands.first) ⟨r, bus⟩ =
      .ok (.address address) ⟨r, bus⟩ := Exec.ask_of_ok found
  simp only [perform, readOperand]
  rw [Action.bind_of_ok (Exec.registers_apply _), bind_assoc, Action.bind_of_ok resolved]
  rfl

/-- Writing goes to the effective address. -/
theorem perform_write (width : Registers → Width) (value : Registers → UInt16)
    (h : effectiveAddress mode operands.first r bus = .ok address) :
    (Effect.write width value).perform mode operands ⟨r, bus⟩ =
      Exec.onBus (Bus.writeAt (width r) address (value r)) ⟨r, bus⟩ := by
  have resolved : Exec.ask (effectiveAddress mode operands.first) ⟨r, bus⟩ =
      .ok address ⟨r, bus⟩ := Exec.ask_of_ok h
  simp only [perform]
  rw [Action.bind_of_ok resolved, Action.bind_of_ok (Exec.registers_apply _)]

/-- Replacing goes to the effective address. -/
theorem perform_replace (result : Registers → UInt16 → UInt16 × Registers)
    (addressed : mode ≠ .accumulator)
    (h : effectiveAddress mode operands.first r bus = .ok address) :
    (Effect.replace result).perform mode operands ⟨r, bus⟩ =
      replaceAt r.memoryWidth address (result r) ⟨r, bus⟩ := by
  have resolved : Exec.ask (effectiveAddress mode operands.first) ⟨r, bus⟩ =
      .ok address ⟨r, bus⟩ := Exec.ask_of_ok h
  simp only [perform, if_neg addressed, replaceMemory]
  rw [Action.bind_of_ok resolved, Action.bind_of_ok (Exec.registers_apply _)]
  rfl

end Effect

namespace Addressing

/-- The address of an operand that is itself in the first bank, in the direct page or relative to
the stack. -/
def lowOperand? (mode : Mode) (operand : UInt32) (r : Registers) : Option UInt16 :=
  match mode with
  | .direct => some (direct r operand)
  | .directIndexedX => some (direct r operand + r.xIndex)
  | .directIndexedY => some (direct r operand + r.yIndex)
  | .stackRelative => some (stackRelative r operand)
  | _ => none

variable {mode : Mode} {operand : UInt32} {r : Registers} {offset : UInt16}

/-- The address of an operand in the first bank does not depend on the bus. -/
theorem effectiveAddress_of_lowOperand (h : lowOperand? mode operand r = some offset) (bus : Bus) :
    effectiveAddress mode operand r bus = .ok offset.toUInt32 := by
  cases mode <;> cases h <;> rfl

/-- An operand in the first bank is in memory. -/
theorem addressed_of_lowOperand (h : lowOperand? mode operand r = some offset) :
    mode ≠ .immediate ∧ mode ≠ .accumulator := by
  cases mode <;> cases h <;> exact ⟨nofun, nofun⟩

end Addressing

namespace Exec

/-- With these registers and on this view, the action neither reads nor writes outside of the first
bank: on all views with the same first bank it comes to the same end, and it leaves what is outside
of the bank as it was. -/
def KeepsToLowBank (action : Exec Unit) (r : Registers) (view : View) : Prop :=
  ∀ other, View.Mirrors view.lowBank view other →
    Action.Matches (Core.Over (Bus.LowTwins view other)) (action ⟨r, .flat view⟩)
      (action ⟨r, .flat other⟩)

variable {r : Registers} {view : View}

/-- Whether an action keeps to the first bank depends on what it does. -/
theorem keepsToLowBank_congr {action action' : Exec Unit}
    (same : ∀ bus, action ⟨r, bus⟩ = action' ⟨r, bus⟩) :
    action.KeepsToLowBank r view ↔ action'.KeepsToLowBank r view := by
  simp only [KeepsToLowBank, same]

/-- What does the same on all views with the same first bank keeps to it. -/
theorem keepsToLowBank_of_respects {action : Exec Unit}
    (h : ∀ other, Respects (Bus.LowTwins view other) action) : action.KeepsToLowBank r view := by
  intro other mirrors
  have twins : View.Twins view.lowBank view other view other :=
    ⟨mirrors, View.Confined.refl _ _, View.Confined.refl _ _⟩
  exact h other _ _ ⟨r, .flat twins⟩

/-- What the action leaves behind differs from the view in the first bank at most. -/
theorem KeepsToLowBank.confined {action : Exec Unit} (keeps : action.KeepsToLowBank r view)
    {s : Registers} {next : View} (done : action ⟨r, .flat view⟩ = .ok () ⟨s, .flat next⟩) :
    View.Confined view.lowBank view next := by
  have hmatch := keeps view ⟨rfl, fun _ _ => rfl⟩
  rw [done] at hmatch
  cases hmatch with
  | ok _ related =>
    cases related with
    | intro _ twins =>
      cases twins with
      | flat twins => exact twins.first

/-- An action that ends in other registers when a byte of the second bank is another one has read
it. -/
theorem not_keepsToLowBank {action : Exec Unit} {s s' : Registers} {bus bus' : Bus}
    (first : action ⟨r, .flat view⟩ = .ok () ⟨s, bus⟩)
    (second : action ⟨r, .flat (view.spoiled Address.bankSize)⟩ = .ok () ⟨s', bus'⟩)
    (different : s ≠ s') : ¬ action.KeepsToLowBank r view := by
  intro keeps
  have hmatch := keeps _ view.mirrors_spoiled
  rw [first, second] at hmatch
  cases hmatch with
  | ok _ related =>
    cases related
    exact different rfl

end Exec

namespace Effect

variable {mode : Mode} {operands : Operands} {r : Registers} {view : View} {offset : UInt16}

section Inside

variable {width : Width} (inside : ¬ view.Crosses offset width.bytes) (other : View)
include inside

/-- A load that stays in the first bank respects what is behind it. -/
theorem respects_loadAt (change : Registers → UInt16 → Registers) :
    Exec.Respects (Bus.LowTwins view other) (loadAt width offset.toUInt32 change) := by
  have read : Exec.Respects (Bus.LowTwins view other)
      (Exec.ask fun _ bus => bus.readAt width offset.toUInt32) :=
    Exec.respects_ask fun _ _ _ twins => twins.readAt_eq inside
  exact read.bind fun _ => Exec.respects_alter _

/-- A store that stays in the first bank respects what is behind it. -/
theorem respects_storeAt (value : UInt16) :
    Exec.Respects (Bus.LowTwins view other)
      (Exec.onBus (Bus.writeAt width offset.toUInt32 value)) :=
  Exec.respects_onBus (Bus.simulates_writeAt inside value)

/-- A replacement that stays in the first bank respects what is behind it. -/
theorem respects_replaceAt (result : UInt16 → UInt16 × Registers) :
    Exec.Respects (Bus.LowTwins view other) (replaceAt width offset.toUInt32 result) := by
  have read : Exec.Respects (Bus.LowTwins view other)
      (Exec.ask fun _ bus => bus.readAt width offset.toUInt32) :=
    Exec.respects_ask fun _ _ _ twins => twins.readAt_eq inside
  apply read.bind
  intro old
  apply Action.Simulates.bind (Exec.respects_alter _)
  intro _
  exact respects_storeAt inside other _

end Inside

section Across

variable {width : Width} (crosses : view.Crosses offset width.bytes)
include crosses

/-- A load across the end of the bank tells what is behind it. -/
theorem not_keeps_loadAt :
    ¬ (loadAt width offset.toUInt32 fun r value => { r with a := value }).KeepsToLowBank r
      view := by
  obtain ⟨value, value', different, first, second⟩ := crosses.readAt_ne
  refine Exec.not_keepsToLowBank (Action.bind_of_ok (Exec.ask_of_ok first))
    (Action.bind_of_ok (Exec.ask_of_ok second)) fun same => ?_
  exact different (congrArg Registers.a same)

/-- A store across the end of the bank leaves another byte behind it. -/
theorem not_keeps_storeAt :
    ¬ (Exec.onBus (Bus.writeAt width offset.toUInt32
      (Word.join (view.byteAt Address.bankSize + 1) 0))).KeepsToLowBank r view := by
  intro keeps
  let value := Word.join (view.byteAt Address.bankSize + 1) 0
  obtain ⟨next, written, byte⟩ := crosses.writeAt_eq value
  have outside := (keeps.confined (Exec.onBus_of_ok written)).outside
    (view.start + Address.bankSize) (.inr (Nat.add_le_add_left (Nat.min_le_right _ _) _))
  rw [byte, Word.high_join] at outside
  exact View.add_one_ne _ outside

/-- What is read across the end of the bank, before it is replaced, tells what is behind it. -/
theorem not_keeps_replaceAt :
    ¬ (replaceAt width offset.toUInt32 fun old => (0, { r with a := old })).KeepsToLowBank r
      view := by
  have crosses' : (view.spoiled Address.bankSize).Crosses offset width.bytes := by
    rw [View.Crosses, View.length_spoiled]
    exact crosses
  obtain ⟨value, value', different, first, second⟩ := crosses.readAt_ne
  obtain ⟨next, written, -⟩ := crosses.writeAt_eq 0
  obtain ⟨next', written', -⟩ := crosses'.writeAt_eq 0
  have replaced {view next : View} {value : UInt16}
      (read : (Bus.flat view).readAt width offset.toUInt32 = .ok value)
      (written : Bus.writeAt width offset.toUInt32 0 (.flat view) = .ok () (.flat next)) :
      replaceAt width offset.toUInt32 (fun old => (0, { r with a := old })) ⟨r, .flat view⟩ =
        .ok () ⟨{ r with a := value }, .flat next⟩ := by
    have wrote : Exec.onBus (Bus.writeAt width offset.toUInt32 0)
        ⟨{ r with a := value }, .flat view⟩ = .ok () ⟨{ r with a := value }, .flat next⟩ :=
      Exec.onBus_of_ok written
    rw [replaceAt, Action.bind_of_ok (Exec.ask_of_ok read)]
    exact (Action.bind_of_ok (Exec.alter_apply _ _)).trans wrote
  refine Exec.not_keepsToLowBank (replaced first written) (replaced second written') fun same => ?_
  exact different (congrArg Registers.a same)

end Across

end Effect

/-- What an instruction does in the direct page or relative to the stack keeps to the first bank
exactly if no access crosses its end: the pointers that are fetched there, and the loads, the stores
and the replacements of operands that are there themselves. -/
theorem keeps_to_low_bank_iff (mode : Mode) (operands : Operands) (r : Registers) (view : View) :
    (∀ offset count, pointer? mode operands.first r = some (offset, count) →
      ((∀ other, View.Mirrors view.lowBank view other →
          effectiveAddress mode operands.first r (.flat view) =
            effectiveAddress mode operands.first r (.flat other)) ↔
        ¬ view.Crosses offset count)) ∧
    ∀ offset, lowOperand? mode operands.first r = some offset →
      (∀ width : Registers → Width,
        ((∀ change, ((Effect.read width change).perform mode operands).KeepsToLowBank r view) ↔
          ¬ view.Crosses offset (width r).bytes) ∧
        ((∀ value, ((Effect.write width value).perform mode operands).KeepsToLowBank r view) ↔
          ¬ view.Crosses offset (width r).bytes)) ∧
      ((∀ result, ((Effect.replace result).perform mode operands).KeepsToLowBank r view) ↔
        ¬ view.Crosses offset r.memoryWidth.bytes) := by
  refine ⟨fun offset count fetched => effectiveAddress_eq_iff fetched view, fun offset lies => ?_⟩
  have address := effectiveAddress_of_lowOperand lies
  obtain ⟨notImmediate, notAccumulator⟩ := addressed_of_lowOperand lies
  refine ⟨fun width => ⟨?_, ?_⟩, ?_⟩
  · simp only [Exec.keepsToLowBank_congr fun bus =>
      Effect.perform_read width _ notImmediate (address bus)]
    exact ⟨fun keeps crosses => Effect.not_keeps_loadAt crosses (keeps _), fun inside change =>
      Exec.keepsToLowBank_of_respects fun other => Effect.respects_loadAt inside other change⟩
  · simp only [Exec.keepsToLowBank_congr fun bus => Effect.perform_write width _ (address bus)]
    exact ⟨fun keeps crosses => Effect.not_keeps_storeAt crosses (keeps fun _ => _),
      fun inside value => Exec.keepsToLowBank_of_respects fun other =>
        Effect.respects_storeAt inside other (value r)⟩
  · simp only [Exec.keepsToLowBank_congr fun bus =>
      Effect.perform_replace _ notAccumulator (address bus)]
    exact ⟨fun keeps crosses => Effect.not_keeps_replaceAt crosses
        (keeps fun r old => (0, { r with a := old })),
      fun inside result => Exec.keepsToLowBank_of_respects fun other =>
        Effect.respects_replaceAt inside other (result r)⟩

/-- With one byte behind the first bank, its last two bytes hold a pointer and a word. -/
theorem keeps_to_low_bank_iff_last_word :
    ∃ memory, Memory.create 0x10001 = .ok memory ∧
      (∀ other, View.Mirrors (View.whole memory).lowBank (View.whole memory) other →
        effectiveAddress .directIndirect 0 { emulation := false, dp := 0xFFFE }
            (.flat (View.whole memory)) =
          effectiveAddress .directIndirect 0 { emulation := false, dp := 0xFFFE } (.flat other)) ∧
      ∀ change, ((Effect.read (fun _ => .word) change).perform .direct {}).KeepsToLowBank
        { emulation := false, dp := 0xFFFE } (View.whole memory) := by
  obtain ⟨memory, created, size⟩ := @Memory.exists_create 0x10001 (by decide)
  have inside : ¬ (View.whole memory).Crosses 0xFFFE 2 := fun crosses => by
    have beyond := crosses.1
    simp [Address.bankSize] at beyond
  refine ⟨memory, created, ?_, ?_⟩
  · exact ((keeps_to_low_bank_iff .directIndirect {} _ _).1 0xFFFE 2 rfl).mpr inside
  · exact (((keeps_to_low_bank_iff .direct {} _ _).2 0xFFFE rfl).1 fun _ => .word).1.mpr inside

/-- A pointer at the last byte of the first bank has its high byte behind the bank. -/
theorem not_keeps_to_low_bank :
    ∃ memory, Memory.create 0x10001 = .ok memory ∧
      View.Mirrors (View.whole memory).lowBank (View.whole memory)
        ((View.whole memory).spoiled Address.bankSize) ∧
      effectiveAddress .directIndirect 0 { emulation := false, dp := 0xFFFF }
          (.flat (View.whole memory)) ≠
        effectiveAddress .directIndirect 0 { emulation := false, dp := 0xFFFF }
          (.flat ((View.whole memory).spoiled Address.bankSize)) := by
  obtain ⟨memory, created, size⟩ := @Memory.exists_create 0x10001 (by decide)
  have crosses : (View.whole memory).Crosses 0xFFFF 2 := ⟨by decide, Nat.le_of_eq size.symm⟩
  exact ⟨memory, created, View.mirrors_spoiled _, effectiveAddress_ne_of_crosses rfl crosses⟩

end W65C816
