import W65C816.Proofs.Execution.Outcomes
import W65C816.Proofs.Memory.Rows

/-!
# Writes of a byte

A byte is written wherever its position is reachable: `Bus.exists_write8_of_check`. In the first
bank the write changes the byte of that number in the view behind the bus and no other one, on a
flat bus as well as on a banked one: `Bus.changesAt_of_write8`. `Bus.ChangesAt` says so of any
number of writes, and keeps the bus otherwise as it is.
-/

set_option autoImplicit false

namespace W65C816

/-! ## Changes -/

namespace Bus

/-- The bus of the same kind with another view behind it. -/
def onto : Bus → View → Bus
  | .flat _, view => .flat view
  | .banked _, view => .banked view

/-- The bus has become another one of its kind onto the same part of a memory, and the memory has
changed at most at some positions in the first bank of the view. -/
structure ChangesAt (bus : Bus) (positions : List UInt16) (next : Bus) : Prop where
  kind : next = bus.onto next.view
  start : next.view.start = bus.view.start
  length : next.view.length = bus.view.length
  size : next.memory.size = bus.memory.size
  byte : ∀ index, (∀ position ∈ positions, index ≠ bus.view.start + position.toNat) →
    next.memory.byte index = bus.memory.byte index

/-- Nothing changes where nothing is done. -/
theorem changesAt_refl (bus : Bus) : bus.ChangesAt [] bus where
  kind := by cases bus <;> rfl
  start := rfl
  length := rfl
  size := rfl
  byte := fun _ _ => rfl

/-- Two changes are one at the positions of both. -/
theorem ChangesAt.trans {bus middle next : Bus} {first second : List UInt16}
    (h : bus.ChangesAt first middle) (h' : middle.ChangesAt second next) :
    bus.ChangesAt (first ++ second) next where
  kind := by
    have kind := h'.kind
    rw [h.kind] at kind
    cases bus <;> exact kind
  start := h'.start.trans h.start
  length := h'.length.trans h.length
  size := h'.size.trans h.size
  byte := fun index apart => by
    simp only [List.forall_mem_append] at apart
    have later : next.memory.byte index = middle.memory.byte index := by
      apply h'.byte
      rw [h.start]
      exact apart.2
    rw [later]
    exact h.byte index apart.1

/-- Setting a byte changes its position. -/
theorem changesAt_setAll {bus : Bus} (position : UInt16) (value : UInt8) :
    bus.ChangesAt [position]
      (bus.onto (bus.view.setAll (bus.view.start + position.toUInt32.toNat) [value])) where
  kind := by cases bus <;> rfl
  start := by cases bus <;> rfl
  length := by cases bus <;> rfl
  size := by cases bus <;> exact Memory.size_setAll _ _ _
  byte := fun index apart => by
    have distinct := apart position (List.mem_singleton_self position)
    have kept := bus.memory.byte_setAll_of_outside (bus.view.start + position.toNat) [value]
      (i := index) (by rw [List.length_singleton]; omega)
    cases bus <;> exact kept

end Bus

/-- The addresses of a word are those of the first bank. -/
theorem Address.bank_toUInt32 (offset : UInt16) : bank offset.toUInt32 = 0 := by
  apply UInt8.toNat.inj
  have bound := offset.toNat_lt
  simp [bank]
  omega

/-- In the first bank an address stands for the position of its number. -/
theorem Banked.position_of_toUInt32 {offset : UInt16} {position : UInt32}
    (h : position? offset.toUInt32 = some position) : position = offset.toUInt32 := by
  simp only [position?, Address.bank_toUInt32, Address.offset, UInt16.toUInt16_toUInt32] at h
  split at h
  · next impossible => exact absurd impossible (by decide)
  · split at h
    · cases h
    · exact (Option.some.inj h).symm

/-- A write at an address of the first bank changes nothing but the byte at its offset. -/
theorem Bus.changesAt_of_write8 {bus next : Bus} {position : UInt16} {value : UInt8}
    (h : write8 position.toUInt32 value bus = .ok () next) : bus.ChangesAt [position] next := by
  cases bus with
  | flat view =>
    obtain ⟨after, written, rfl⟩ := Action.place_eq_ok_iff.mp h
    obtain ⟨-, rfl⟩ := (View.write8_eq_ok_iff _ _ _ _).mp written
    exact (Bus.flat view).changesAt_setAll position value
  | banked wram =>
    obtain ⟨after, written, rfl⟩ := Action.place_eq_ok_iff.mp h
    unfold Banked.write8 at written
    split at written
    · next place resolved =>
      obtain ⟨stands, -⟩ := (Banked.resolve_eq_ok_iff _ _ _).mp resolved
      obtain ⟨-, rfl⟩ := (View.write8_eq_ok_iff _ _ _ _).mp written
      rw [Banked.position_of_toUInt32 stands]
      exact (Bus.banked wram).changesAt_setAll position value
    · cases written

/-! ## Reachable positions -/

/-- A byte is written wherever a position is reachable. -/
theorem Bus.exists_write8_of_check {bus : Bus} {position : UInt32} (value : UInt8)
    (reachable : bus.check position 1 = .ok ()) :
    ∃ next, write8 position value bus = .ok () next := by
  cases bus with
  | flat view =>
    have inside := (view.check_eq_ok_iff position 1).mp reachable
    have written := (View.write8_eq_ok_iff view _ position value).mpr ⟨inside, rfl⟩
    exact ⟨_, congrArg (Action.place Bus.flat) written⟩
  | banked wram =>
    have resolved : ∃ place, Banked.resolve wram position = .ok place := by
      change Banked.checkEach wram position 1 = .ok () at reachable
      unfold Banked.checkEach at reachable
      split at reachable
      · next place found => exact ⟨place, found⟩
      · cases reachable
    obtain ⟨place, found⟩ := resolved
    obtain ⟨-, inside⟩ := (Banked.resolve_eq_ok_iff _ _ _).mp found
    have written := (View.write8_eq_ok_iff wram _ place value).mpr ⟨inside, rfl⟩
    refine ⟨_, congrArg (Action.place Bus.banked) (Eq.trans ?_ written)⟩
    rw [Banked.write8, found]

/-- Every memory is large enough for the page of the stack. -/
theorem Bus.check_of_stackPage {bus : Bus} {position : UInt16} (low : position ≤ 0x01FF)
    (room : Memory.leastSize ≤ bus.view.length) : bus.check position.toUInt32 1 = .ok () := by
  have below : position.toNat < Memory.leastSize := by
    rw [UInt16.le_iff_toNat_le] at low
    exact Nat.lt_succ_of_le low
  have number : position.toUInt32.toNat = position.toNat := position.toNat_toUInt32
  cases bus with
  | flat view =>
    have room : Memory.leastSize ≤ view.length := room
    apply (view.check_eq_ok_iff _ 1).mpr
    omega
  | banked wram =>
    have room : Memory.leastSize ≤ wram.length := room
    have here : Banked.position? position.toUInt32 = some position.toUInt32 := by
      have half : ¬ Banked.highHalf ≤ position := by
        rw [UInt16.le_iff_toNat_le] at low ⊢
        exact Nat.not_le_of_lt (Nat.lt_of_le_of_lt low (by decide))
      simp only [Banked.position?, Address.bank_toUInt32, Address.offset,
        UInt16.toUInt16_toUInt32, if_neg half]
      rw [if_neg (by decide)]
    have found := (Banked.resolve_eq_ok_iff wram _ _).mpr ⟨here, by omega⟩
    show Banked.checkEach wram position.toUInt32 1 = .ok ()
    rw [Banked.checkEach, found]
    rfl

end W65C816
