import W65C816.Proofs.Execution.Access
import W65C816.Proofs.Memory.Bytes

/-!
# The window of a bus

The window of a bus is the part of its memory that accesses come to: the whole of a flat view, and
of the working memory behind a banked view the two banks that addresses are resolved into. Buses
mirror each other when they are of one kind and length and hold the same bytes in their windows,
wherever the windows lie and whatever is around them. A bus is confined to its origin when its
memory differs from that of the origin inside the window at most.

Mirroring each other while staying confined to two given origins is a bisimulation,
`Bus.bisimulation_twins`. Two facts make it one: each access is checked against the length, which is
the same on both sides, and the start of a view is added only after that.
-/

set_option autoImplicit false

namespace W65C816

/-! ## Views -/

namespace View

/-- Views of one length, with the same bytes at all positions below `reach`. -/
structure Mirrors (reach : Nat) (view other : View) : Prop where
  length : view.length = other.length
  same : ∀ p < reach, view.byteAt p = other.byteAt p

/-- The view lies where its origin lay, and below `reach` alone its bytes may be others. -/
structure Confined (reach : Nat) (origin view : View) : Prop where
  start : view.start = origin.start
  length : view.length = origin.length
  size : view.memory.size = origin.memory.size
  outside : ∀ i, i < origin.start ∨ origin.start + reach ≤ i →
    view.memory.byte i = origin.memory.byte i

/-- Views that mirror each other, each confined to an origin of its own. -/
structure Twins (reach : Nat) (origin origin' view other : View) : Prop where
  mirrors : Mirrors reach view other
  first : Confined reach origin view
  second : Confined reach origin' other

variable {reach : Nat} {origin origin' view other : View}

/-- A view that nothing happens to is confined. -/
theorem Confined.refl (reach : Nat) (view : View) : Confined reach view view :=
  ⟨rfl, rfl, rfl, fun _ _ => rfl⟩

/-- Setting bytes within reach is confined. -/
theorem Confined.setAll (h : Confined reach origin view) {position : Nat} {values : List UInt8}
    (room : position + values.length ≤ reach) :
    Confined reach origin (view.setAll (view.start + position) values) where
  start := h.start
  length := h.length
  size := (Memory.size_setAll _ _ _).trans h.size
  outside := by
    intro i outside
    have apart : i < view.start + position ∨ view.start + position + values.length ≤ i := by
      have start := h.start
      omega
    rw [memory_setAll, Memory.byte_setAll_of_outside _ _ _ apart]
    exact h.outside i outside

/-- The same row at the same position leaves views that mirror each other. -/
theorem Mirrors.setAll (h : Mirrors reach view other) (short : reach ≤ view.length)
    {position : Nat} {values : List UInt8} (room : position + values.length ≤ reach) :
    Mirrors reach (view.setAll (view.start + position) values)
      (other.setAll (other.start + position) values) where
  length := h.length
  same := by
    intro p below
    have fits : position + values.length ≤ view.length := Nat.le_trans room short
    have fits' : position + values.length ≤ other.length := h.length ▸ fits
    -- In the row both hold what was written, elsewhere what they held before.
    by_cases inside : position ≤ p ∧ p < position + values.length
    · obtain ⟨k, rfl⟩ := Nat.exists_eq_add_of_le inside.1
      have bound : k < values.length := by omega
      have first := (holds_setAll fits).byteAt bound
      have second := (holds_setAll fits').byteAt bound
      exact first.trans second.symm
    · have apart : p < position ∨ position + values.length ≤ p := by omega
      rw [byteAt_setAll_of_outside apart, byteAt_setAll_of_outside apart]
      exact h.same p below

/-- Views that mirror each other check alike. -/
theorem Mirrors.check_eq (h : Mirrors reach view other) (position : UInt32) (count : Nat) :
    view.check position count = other.check position count := by
  unfold check
  rw [h.length]

/-- An access is refused on both sides with one fault, or granted on both. -/
theorem Mirrors.locate_cases (h : Mirrors reach view other) (position : UInt32) (count : Nat) :
    (∃ fault, view.locate position count = .error fault ∧
        other.locate position count = .error fault) ∨
      view.locate position count = .ok (view.start + position.toNat) ∧
        other.locate position count = .ok (other.start + position.toNat) ∧
        position.toNat + max count 1 ≤ view.length := by
  have same := h.check_eq position count
  unfold locate
  rw [← same]
  cases hcheck : view.check position count with
  | error fault => exact .inl ⟨fault, rfl, rfl⟩
  | ok _ => exact .inr ⟨rfl, rfl, (view.check_eq_ok_iff position count).mp hcheck⟩

/-- The byte of an access, seen from the start of the view. -/
theorem Mirrors.byte_eq (h : Mirrors reach view other) (position i : Nat)
    (below : position + i < reach) :
    view.memory.byte (view.start + position + i) =
      other.memory.byte (other.start + position + i) := by
  rw [Nat.add_assoc, Nat.add_assoc]
  exact h.same (position + i) below

/-- Views that mirror each other read the same byte within reach. -/
theorem Mirrors.read8_eq (h : Mirrors reach view other) {position : UInt32}
    (inside : position.toNat < view.length → position.toNat < reach) :
    view.read8 position = other.read8 position := by
  unfold read8
  rcases h.locate_cases position 1 with ⟨fault, first, second⟩ | ⟨first, second, room⟩
  · rw [first, second]
  · rw [first, second]
    have below := inside (by omega)
    exact congrArg Except.ok (h.byte_eq position.toNat 0 below)

/-- Views that mirror each other read the same word within reach. -/
theorem Mirrors.read16_eq (h : Mirrors reach view other) {position : UInt32}
    (inside : position.toNat + 2 ≤ view.length → position.toNat + 2 ≤ reach) :
    view.read16 position = other.read16 position := by
  unfold read16
  rcases h.locate_cases position 2 with ⟨fault, first, second⟩ | ⟨first, second, room⟩
  · rw [first, second]
  · have below := inside room
    have low := h.byte_eq position.toNat 0 (by omega)
    have high := h.byte_eq position.toNat 1 (by omega)
    rw [Nat.add_zero, Nat.add_zero] at low
    rw [first, second]
    simp only [low, high]

/-- Views that mirror each other read the same address within reach. -/
theorem Mirrors.read24_eq (h : Mirrors reach view other) {position : UInt32}
    (inside : position.toNat + 3 ≤ view.length → position.toNat + 3 ≤ reach) :
    view.read24 position = other.read24 position := by
  unfold read24
  rcases h.locate_cases position 3 with ⟨fault, first, second⟩ | ⟨first, second, room⟩
  · rw [first, second]
  · have below := inside room
    have low := h.byte_eq position.toNat 0 (by omega)
    have middle := h.byte_eq position.toNat 1 (by omega)
    have high := h.byte_eq position.toNat 2 (by omega)
    rw [Nat.add_zero, Nat.add_zero] at low
    rw [first, second]
    simp only [low, middle, high]

/-- Views that mirror each other all over read the same row. -/
theorem Mirrors.readBlock_eq (h : Mirrors view.length view other) (position : UInt32)
    (count : Nat) : view.readBlock position count = other.readBlock position count := by
  unfold readBlock
  by_cases empty : count = 0
  · rw [if_pos empty, if_pos empty]
  · rw [if_neg empty, if_neg empty]
    rcases h.locate_cases position count with ⟨fault, first, second⟩ | ⟨first, second, room⟩
    · rw [first, second]
    · rw [first, second]
      refine congrArg Except.ok (List.map_congr_left fun i hi => ?_)
      have bound := List.mem_range.mp hi
      exact h.byte_eq position.toNat i (by omega)

/-- Writing the same row keeps twins, when the row lies below `reach` wherever it fits. -/
theorem simulates_write (short : reach ≤ origin.length) {position : UInt32}
    {values : List UInt8}
    (inside : position.toNat + max values.length 1 ≤ origin.length →
      position.toNat + values.length ≤ reach) :
    Action.Simulates (Twins reach origin origin') (write position values)
      (write position values) := by
  intro view other twins
  unfold write
  rcases twins.mirrors.locate_cases position values.length with
    ⟨fault, first, second⟩ | ⟨first, second, room⟩
  · rw [first, second]
    exact .error fault twins
  · rw [first, second]
    have length := twins.first.length
    have row := inside (by omega)
    have short' : reach ≤ view.length := by omega
    exact .ok () ⟨twins.mirrors.setAll short' row, twins.first.setAll row,
      twins.second.setAll row⟩

/-- Bytes are written alike to views that mirror each other. -/
theorem simulates_row (position : UInt32) {values : List UInt8} (nonempty : values ≠ []) :
    Action.Simulates (Twins origin.length origin origin') (write position values)
      (write position values) := by
  have positive : 0 < values.length := List.length_pos_iff.mpr nonempty
  exact simulates_write (Nat.le_refl _) fun room => by omega

/-- A row is written alike to views that mirror each other, the empty one included. -/
theorem simulates_writeBlock (position : UInt32) (values : List UInt8) :
    Action.Simulates (Twins origin.length origin origin') (writeBlock position values)
      (writeBlock position values) := by
  cases values with
  | nil => exact Action.simulates_pure ()
  | cons value rest => exact simulates_row position (List.cons_ne_nil value rest)

end View

/-! ## Banked addresses -/

namespace Banked

/-- The size of the two banks of working memory. -/
def reach : Nat := 0x20000

/-- An address stands for a position in the two banks, if it stands for one. -/
theorem toNat_lt_reach {address position : UInt32} (h : position? address = some position) :
    position.toNat < reach := by
  unfold position? at h
  simp only [] at h
  split at h
  · next wram =>
    obtain rfl := Option.some.inj h
    have offset := (Address.offset address).toNat_lt
    have bank : (Address.bank address - firstBank).toNat ≤ 1 := by
      rcases wram with same | same <;> rw [same] <;> decide
    rw [Address.toNat_ofBank, reach]
    omega
  · split at h
    · cases h
    · obtain rfl := Option.some.inj h
      have offset := (Address.offset address).toNat_lt
      rw [UInt16.toNat_toUInt32, reach]
      omega

/-- An address resolves to a position within reach. -/
theorem toNat_lt_of_resolve {wram : View} {address position : UInt32}
    (h : resolve wram address = .ok position) :
    position.toNat < min wram.length reach := by
  unfold resolve at h
  split at h
  · cases h
  · next found =>
    have below := toNat_lt_reach found
    split at h
    · next inside =>
      obtain rfl := Except.ok.inj h
      have room := (wram.check_eq_ok_iff _ 1).mp inside
      omega
    · cases h

variable {wram other : View} {bound : Nat}

/-- Addresses resolve alike in banked views of the same length. -/
theorem resolve_eq (h : View.Mirrors bound wram other) (address : UInt32) :
    resolve wram address = resolve other address := by
  unfold resolve
  simp only [h.check_eq]

/-- Rows are checked alike in banked views of the same length. -/
theorem checkEach_eq (h : View.Mirrors bound wram other) (address : UInt32) (count : Nat) :
    checkEach wram address count = checkEach other address count := by
  induction count generalizing address with
  | zero => rfl
  | succ count ih =>
    simp only [checkEach, resolve_eq h]
    split
    · exact ih (address + 1)
    · rfl

/-- Banked views that mirror each other read the same byte. -/
theorem read8_eq (h : View.Mirrors (min wram.length reach) wram other) (address : UInt32) :
    read8 wram address = read8 other address := by
  unfold read8
  rw [← resolve_eq h]
  split
  · next position found =>
    apply h.read8_eq
    intro _
    exact toNat_lt_of_resolve found
  · rfl

/-- A byte is written alike to banked views that mirror each other. -/
theorem simulates_write8 {origin origin' : View} (address : UInt32) (value : UInt8) :
    Action.Simulates (View.Twins (min origin.length reach) origin origin')
      (write8 address value) (write8 address value) := by
  intro wram other twins
  unfold write8
  rw [← resolve_eq twins.mirrors]
  split
  · next position found =>
    have below := toNat_lt_of_resolve found
    rw [twins.first.length] at below
    exact View.simulates_write (Nat.min_le_left _ _) (fun _ => below) wram other twins
  · next fault _ => exact .error fault twins

end Banked

/-! ## Buses -/

namespace Bus

/-- The number of positions in the window of a bus. -/
def reach : Bus → Nat
  | .flat view => view.length
  | .banked wram => min wram.length Banked.reach

/-- Buses of one kind and length that hold the same bytes in their windows. -/
inductive Mirrors : Bus → Bus → Prop
  | flat {view other : View} (h : View.Mirrors view.length view other) :
    Mirrors (.flat view) (.flat other)
  | banked {wram other : View} (h : View.Mirrors (min wram.length Banked.reach) wram other) :
    Mirrors (.banked wram) (.banked other)

/-- Buses that mirror each other, each of them confined to an origin of its own. -/
inductive Twins : Bus → Bus → Bus → Bus → Prop
  | flat {origin origin' view other : View}
    (h : View.Twins origin.length origin origin' view other) :
    Twins (.flat origin) (.flat origin') (.flat view) (.flat other)
  | banked {origin origin' wram other : View}
    (h : View.Twins (min origin.length Banked.reach) origin origin' wram other) :
    Twins (.banked origin) (.banked origin') (.banked wram) (.banked other)

variable {origin origin' bus other : Bus}

/-- Buses that mirror each other start as twins. -/
theorem Mirrors.twins (h : bus.Mirrors other) : Twins bus other bus other := by
  cases h with
  | flat h => exact .flat ⟨h, View.Confined.refl _ _, View.Confined.refl _ _⟩
  | banked h => exact .banked ⟨h, View.Confined.refl _ _, View.Confined.refl _ _⟩

/-- Every bus mirrors itself. -/
theorem Mirrors.refl (bus : Bus) : bus.Mirrors bus := by
  cases bus with
  | flat view => exact .flat ⟨rfl, fun _ _ => rfl⟩
  | banked wram => exact .banked ⟨rfl, fun _ _ => rfl⟩

/-- Twins mirror each other. -/
theorem Twins.mirrors (h : Twins origin origin' bus other) : bus.Mirrors other := by
  cases h with
  | flat h =>
    have same := h.first.length ▸ h.mirrors
    exact .flat same
  | banked h =>
    have same := h.first.length ▸ h.mirrors
    exact .banked same

/-- The first of twins is confined to its window. -/
theorem Twins.first (h : Twins origin origin' bus other) :
    View.Confined origin.reach origin.view bus.view := by
  cases h with
  | flat h => exact h.first
  | banked h => exact h.first

/-- The second of twins is confined to its window. -/
theorem Twins.second (h : Twins origin origin' bus other) :
    View.Confined origin.reach origin'.view other.view := by
  cases h with
  | flat h => exact h.second
  | banked h => exact h.second

end Bus

namespace Bytewise

variable {relation : Bus → Bus → Prop}

/-- Writing byte by byte keeps buses related when checking and writing one byte do. -/
theorem simulates_write
    (check : ∀ {bus other}, relation bus other → ∀ position count,
      bus.check position count = other.check position count)
    (write8 : ∀ position value,
      Action.Simulates relation (Bus.write8 position value) (Bus.write8 position value))
    (position : UInt32) (values : List UInt8) :
    Action.Simulates relation (write position values) (write position values) := by
  apply Action.Simulates.bind
  · apply Action.simulates_look
    intro bus other related
    exact check related _ _
  · intro _
    apply Action.simulates_forM
    intro item
    exact write8 item.1 item.2

end Bytewise

namespace Bus

variable {origin origin' bus other : Bus}

/-- Buses that mirror each other check alike. -/
theorem Mirrors.check_eq (h : bus.Mirrors other) (position : UInt32) (count : Nat) :
    bus.check position count = other.check position count := by
  cases h with
  | flat h => exact h.check_eq position count
  | banked h => exact Banked.checkEach_eq h position _

/-- Buses that mirror each other read the same byte. -/
theorem Mirrors.read8_eq (h : bus.Mirrors other) (position : UInt32) :
    bus.read8 position = other.read8 position := by
  cases h with
  | flat h => exact h.read8_eq fun inside => inside
  | banked h => exact Banked.read8_eq h position

/-- Buses that mirror each other read the same word. -/
theorem Mirrors.read16_eq (h : bus.Mirrors other) (position : UInt32) :
    bus.read16 position = other.read16 position := by
  have check := h.check_eq
  have bytes := h.read8_eq
  cases h with
  | flat h => exact h.read16_eq id
  | banked h => simp only [read16, Bytewise.read16, check, bytes]

/-- Buses that mirror each other read the same address. -/
theorem Mirrors.read24_eq (h : bus.Mirrors other) (position : UInt32) :
    bus.read24 position = other.read24 position := by
  have check := h.check_eq
  have bytes := h.read8_eq
  cases h with
  | flat h => exact h.read24_eq id
  | banked h => simp only [read24, Bytewise.read24, check, bytes]

/-- Buses that mirror each other read the same row. -/
theorem Mirrors.readBlock_eq (h : bus.Mirrors other) (position : UInt32) (count : Nat) :
    bus.readBlock position count = other.readBlock position count := by
  have check := h.check_eq
  have bytes : bus.read8 = other.read8 := funext h.read8_eq
  cases h with
  | flat h => exact h.readBlock_eq position count
  | banked h => simp only [readBlock, Bytewise.readBlock, check, bytes]

/-- A byte is written alike to twins. -/
theorem Twins.simulates_write8 (position : UInt32) (value : UInt8) :
    Action.Simulates (Twins origin origin') (write8 position value) (write8 position value) := by
  intro bus other twins
  cases twins with
  | flat h =>
    have hmatch := View.simulates_row position (List.cons_ne_nil value []) _ _ h
    exact hmatch.place .flat
  | banked h =>
    have hmatch := Banked.simulates_write8 position value _ _ h
    exact hmatch.place .banked

/-- A row is written by an access of its own on a flat view, and byte by byte on a banked one. -/
theorem Twins.simulates_row {action : EStateM Fault Bus Unit} {onView : EStateM Fault View Unit}
    {position : UInt32} {values : List UInt8}
    (flat : ∀ view, action (.flat view) = Action.place .flat (onView view))
    (banked : ∀ wram, action (.banked wram) = Bytewise.write position values (.banked wram))
    (h : ∀ {origin origin' : View},
      Action.Simulates (View.Twins origin.length origin origin') onView onView) :
    Action.Simulates (Twins origin origin') action action := by
  intro bus other twins
  have hbytewise : Action.Simulates (Twins origin origin') (Bytewise.write position values)
      (Bytewise.write position values) :=
    Bytewise.simulates_write (fun twins => twins.mirrors.check_eq) Twins.simulates_write8 _ _
  have hmatch := hbytewise bus other twins
  cases twins with
  | flat twins =>
    rw [flat, flat]
    exact (h _ _ twins).place .flat
  | banked twins =>
    rw [banked, banked]
    exact hmatch

/-- Mirroring each other while confined to two origins is a bisimulation. -/
theorem bisimulation_twins (origin origin' : Bus) : Bisimulation (Twins origin origin') where
  check := fun twins => twins.mirrors.check_eq
  read8 := fun twins => twins.mirrors.read8_eq
  read16 := fun twins => twins.mirrors.read16_eq
  read24 := fun twins => twins.mirrors.read24_eq
  readBlock := fun twins => twins.mirrors.readBlock_eq
  write8 := Twins.simulates_write8
  write16 := by
    intro position value
    refine Twins.simulates_row (fun _ => rfl) (fun _ => rfl) ?_
    exact View.simulates_row position (List.cons_ne_nil _ _)
  write24 := by
    intro position value
    refine Twins.simulates_row (fun _ => rfl) (fun _ => rfl) ?_
    exact View.simulates_row position (List.cons_ne_nil _ _)
  writeBlock := by
    intro position values
    refine Twins.simulates_row (fun _ => rfl) (fun _ => rfl) ?_
    exact View.simulates_writeBlock position values

end Bus

end W65C816
