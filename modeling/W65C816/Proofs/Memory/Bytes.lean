import W65C816.Memory.Bus

/-!
# Rows of bytes in a view

`View.Holds` says that a row of bytes lies in a view from a position on. A read succeeds with a
value exactly when the view holds the bytes of that value there, lowest first. A write of a row that
fits leaves a view that holds the row, with every byte outside of it as it was, so rows that do not
overlap are held side by side.
-/

set_option autoImplicit false

namespace W65C816

/-! ## Rows in a memory -/

namespace Memory

/-- Setting several bytes leaves the others. -/
theorem byte_setAll_of_outside (memory : Memory) (index : Nat) (values : List UInt8) {i : Nat}
    (outside : i < index ∨ index + values.length ≤ i) :
    (memory.setAll index values).byte i = memory.byte i := by
  induction values generalizing memory index with
  | nil => rfl
  | cons value rest ih =>
    rw [List.length_cons] at outside
    have apart : i ≠ index := by omega
    have hrest := ih (memory.set index value) (index + 1) (by omega)
    rw [setAll, hrest, byte_set, if_neg fun same => apart same.1]

/-- Bytes that are set in memory read back. -/
theorem byte_setAll (memory : Memory) (index : Nat) (values : List UInt8)
    (room : index + values.length ≤ memory.size) {k : Nat} (bound : k < values.length) :
    (memory.setAll index values).byte (index + k) = values[k] := by
  induction values generalizing memory index k with
  | nil => cases bound
  | cons value rest ih =>
    rw [List.length_cons] at room bound
    rw [setAll]
    cases k with
    | zero =>
      have hfirst := byte_setAll_of_outside (memory.set index value) (index + 1) rest
        (.inl (Nat.lt_succ_self index))
      change ((memory.set index value).setAll (index + 1) rest).byte index = value
      rw [hfirst, byte_set, if_pos ⟨rfl, by omega⟩]
    | succ k =>
      have hrest := ih (memory.set index value) (index + 1) (by rw [size_set]; omega)
        (Nat.lt_of_succ_lt_succ bound)
      rw [Nat.add_right_comm] at hrest
      exact hrest

end Memory

namespace View

variable {view other : View} {position : Nat} {values : List UInt8}

/-- No view is longer than the greatest memory. -/
theorem length_le (view : View) : view.length ≤ Memory.greatestSize :=
  Nat.le_trans (Nat.le_of_add_left_le view.end_le) view.memory.size_le

/-- Positions within a view do not wrap. -/
theorem toNat_add_ofNat {start : UInt32} {count : Nat}
    (room : start.toNat + count ≤ view.length) :
    (start + UInt32.ofNat count).toNat = start.toNat + count := by
  have bound := view.length_le
  rw [Memory.greatestSize] at bound
  have small : (UInt32.ofNat count).toNat = count := by
    rw [UInt32.toNat_ofNat']
    omega
  rw [UInt32.toNat_add, small]
  omega

/-- The position after one inside a view does not wrap. -/
theorem toNat_add_one (view : View) {start : UInt32} (inside : start.toNat < view.length) :
    (start + 1).toNat = start.toNat + 1 :=
  @toNat_add_ofNat view start 1 inside

/-- The byte of the view at a position, and zero outside the memory. -/
def byteAt (view : View) (position : Nat) : UInt8 :=
  view.memory.byte (view.start + position)

/-- The row of bytes lies in the view from a position on. -/
def Holds (view : View) : Nat → List UInt8 → Prop
  | _, [] => True
  | position, value :: rest =>
    position < view.length ∧ view.byteAt position = value ∧ view.Holds (position + 1) rest

/-- A row that lies in the view, read off byte by byte. -/
theorem Holds.byteAt (h : view.Holds position values) {k : Nat} (bound : k < values.length) :
    view.byteAt (position + k) = values[k] := by
  induction values generalizing position k with
  | nil => cases bound
  | cons value rest ih =>
    cases k with
    | zero => exact h.2.1
    | succ k =>
      have hrest := ih h.2.2 (Nat.lt_of_succ_lt_succ bound)
      rw [Nat.add_right_comm] at hrest
      exact hrest

/-- A view that has room for a row and shows its bytes holds it. -/
theorem holds_of_byteAt (room : position + values.length ≤ view.length)
    (h : ∀ k (bound : k < values.length), view.byteAt (position + k) = values[k]) :
    view.Holds position values := by
  induction values generalizing position with
  | nil => trivial
  | cons value rest ih =>
    rw [List.length_cons] at room
    refine ⟨by omega, h 0 (Nat.zero_lt_succ _), ih (by omega) fun k bound => ?_⟩
    rw [Nat.add_right_comm]
    exact h (k + 1) (Nat.succ_lt_succ bound)

/-- A row that is held ends inside the view. -/
theorem Holds.end_le (h : view.Holds position values) (nonempty : values ≠ []) :
    position + values.length ≤ view.length := by
  induction values generalizing position with
  | nil => exact absurd rfl nonempty
  | cons value rest ih =>
    rw [List.length_cons]
    rcases rest with _ | ⟨next, rest⟩
    · exact h.1
    · have hrest := ih h.2.2 nofun
      omega

/-- A view that has the same bytes where the row lies holds it too. -/
theorem Holds.frame (h : view.Holds position values) (longer : view.length ≤ other.length)
    (same : ∀ i, position ≤ i → i < position + values.length → other.byteAt i = view.byteAt i) :
    other.Holds position values := by
  by_cases nonempty : values = []
  · rw [nonempty]
    trivial
  · have room := h.end_le nonempty
    refine holds_of_byteAt (by omega) fun k bound => ?_
    rw [same (position + k) (by omega) (by omega), h.byteAt bound]

/-! ## Reads -/

/-- An access with room in the view is located there. -/
theorem locate_of_room {position : UInt32} {count : Nat} (positive : 0 < count)
    (room : position.toNat + count ≤ view.length) :
    view.locate position count = .ok (view.start + position.toNat) :=
  (locate_eq_ok_iff view position count _).mpr ⟨rfl, by omega⟩

/-- An access that is located has room in the view. -/
theorem room_of_locate {position : UInt32} {count index : Nat} (positive : 0 < count)
    (h : view.locate position count = .ok index) :
    index = view.start + position.toNat ∧ position.toNat + count ≤ view.length := by
  obtain ⟨here, room⟩ := (locate_eq_ok_iff view position count index).mp h
  exact ⟨here, by omega⟩

/-- Reading a byte yields what the view holds. -/
theorem read8_eq_ok_iff (view : View) (position : UInt32) (value : UInt8) :
    view.read8 position = .ok value ↔ view.Holds position.toNat [value] := by
  unfold read8
  constructor
  · intro h
    split at h
    · next located =>
      obtain ⟨rfl, room⟩ := room_of_locate Nat.one_pos located
      injection h with same
      exact ⟨by omega, same, trivial⟩
    · cases h
  · intro h
    rw [locate_of_room Nat.one_pos (h.end_le nofun)]
    exact congrArg Except.ok h.2.1

/-- Reading a word yields the word whose bytes the view holds. -/
theorem read16_eq_ok_iff (view : View) (position : UInt32) (value : UInt16) :
    view.read16 position = .ok value ↔
      view.Holds position.toNat [Word.low value, Word.high value] := by
  unfold read16
  constructor
  · intro h
    split at h
    · next located =>
      obtain ⟨rfl, room⟩ := room_of_locate Nat.two_pos located
      injection h with same
      subst same
      rw [Word.low_join, Word.high_join]
      exact ⟨by omega, rfl, by omega, rfl, trivial⟩
    · cases h
  · intro h
    rw [locate_of_room Nat.two_pos (h.end_le nofun)]
    obtain ⟨-, hlow, -, hhigh, -⟩ := h
    have hword : Word.join (view.byteAt (position.toNat + 1)) (view.byteAt position.toNat) =
        value := by
      rw [hlow, hhigh, Word.join_high_low]
    exact congrArg Except.ok hword

/-- Reading three bytes yields the number whose bytes the view holds. -/
theorem read24_eq_ok_iff (view : View) (position : UInt32) (value : UInt32) :
    view.read24 position = .ok value ↔ Address.wrap value = value ∧
      view.Holds position.toNat [Address.low value, Address.middle value, Address.bank value] := by
  unfold read24
  constructor
  · intro h
    split at h
    · next located =>
      obtain ⟨rfl, room⟩ := room_of_locate (by decide) located
      injection h with same
      subst same
      rw [Address.low_ofBytes, Address.middle_ofBytes, Address.bank_ofBytes]
      exact ⟨Address.wrap_ofBank _ _, by omega, rfl, by omega, rfl, by omega, rfl, trivial⟩
    · cases h
  · rintro ⟨small, h⟩
    have room : position.toNat + 3 ≤ view.length := h.end_le nofun
    rw [locate_of_room (by decide) room]
    obtain ⟨-, hlow, -, hmiddle, -, hbank, -⟩ := h
    have hnumber : Address.ofBytes (view.byteAt (position.toNat + 1 + 1))
        (view.byteAt (position.toNat + 1)) (view.byteAt position.toNat) = value := by
      rw [hlow, hmiddle, hbank, Address.ofBytes_bytes, small]
    exact congrArg Except.ok hnumber

/-! ## Writes -/

/-- A row that fits is held by the view after it was written. -/
theorem holds_setAll (room : position + values.length ≤ view.length) :
    (view.setAll (view.start + position) values).Holds position values := by
  have fits := view.end_le
  refine holds_of_byteAt room fun k bound => ?_
  unfold View.byteAt
  rw [start_setAll, memory_setAll, ← Nat.add_assoc]
  exact Memory.byte_setAll _ _ _ (by omega) bound

/-- Outside the row that was written every byte is as it was. -/
theorem byteAt_setAll_of_outside {i : Nat} (outside : i < position ∨ position + values.length ≤ i) :
    (view.setAll (view.start + position) values).byteAt i = view.byteAt i := by
  unfold View.byteAt
  rw [start_setAll, memory_setAll]
  exact Memory.byte_setAll_of_outside _ _ _ (by omega)

/-- A byte is written exactly where there is one. -/
theorem write8_eq_ok_iff (view next : View) (position : UInt32) (value : UInt8) :
    write8 position value view = .ok () next ↔
      position.toNat < view.length ∧
        next = view.setAll (view.start + position.toNat) [value] := by
  unfold write8 write
  rw [List.length_singleton]
  constructor
  · intro written
    split at written
    · next located =>
      obtain ⟨rfl, room⟩ := room_of_locate Nat.one_pos located
      injection written with _ same
      exact ⟨room, same.symm⟩
    · cases written
  · rintro ⟨inside, rfl⟩
    rw [locate_of_room Nat.one_pos inside]

end View

/-- A row of at least one byte is written onto a flat bus exactly when it fits. -/
theorem Bus.writeBlock_flat_eq_ok_iff (view : View) (position : UInt32) {values : List UInt8}
    (nonempty : values ≠ []) (bus : Bus) :
    Bus.writeBlock position values (.flat view) = .ok () bus ↔
      position.toNat + values.length ≤ view.length ∧
        bus = .flat (view.setAll (view.start + position.toNat) values) := by
  have positive : 0 < values.length := List.length_pos_iff.mpr nonempty
  have filled : values.isEmpty = false := List.isEmpty_eq_false_iff.mpr nonempty
  simp only [Bus.writeBlock, View.writeBlock, filled, Bool.false_eq_true, if_false, View.write]
  constructor
  · intro h
    split at h
    · next located =>
      obtain ⟨rfl, room⟩ := View.room_of_locate positive located
      injection h with _ same
      exact ⟨room, same.symm⟩
    · cases h
  · rintro ⟨room, rfl⟩
    rw [View.locate_of_room positive room]
    rfl

end W65C816
