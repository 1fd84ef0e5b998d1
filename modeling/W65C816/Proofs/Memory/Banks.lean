import W65C816.Proofs.Memory.Windows
import W65C816.Proofs.Program.Walk

/-!
# Banks of a flat view

Positions of a flat view run on from one bank into the next, so an access of several bytes can begin
in one bank and end in another. What such an access reads depends on a byte of the second bank. To
say so, `View.spoiled` puts another byte at a position: a number that is read there becomes another
number, `View.readNumber_spoiled`, while a number that ends before it stays the same,
`View.Mirrors.readNumber_eq`.
-/

set_option autoImplicit false

namespace W65C816

/-- The number of addresses in a bank. -/
def Address.bankSize : Nat := 0x10000

namespace View

variable {view other : View}

/-! ## Another byte -/

/-- A byte and its successor differ. -/
theorem add_one_ne (byte : UInt8) : byte + 1 ≠ byte := by
  intro same
  have weight := congrArg UInt8.toNat same
  rw [UInt8.toNat_add, UInt8.toNat_one] at weight
  omega

/-- The view with another byte at a position. -/
def spoiled (view : View) (position : Nat) : View :=
  view.setAll (view.start + position) [view.byteAt position + 1]

/-- Spoiling a byte keeps the length of a view. -/
@[simp] theorem length_spoiled (view : View) (position : Nat) :
    (view.spoiled position).length = view.length := rfl

/-- Spoiling a byte leaves the others. -/
theorem byteAt_spoiled_of_ne {position i : Nat} (apart : i ≠ position) :
    (view.spoiled position).byteAt i = view.byteAt i := by
  apply byteAt_setAll_of_outside
  rw [List.length_singleton]
  omega

/-- Inside the view the spoiled byte is another one. -/
theorem byteAt_spoiled_ne {position : Nat} (inside : position < view.length) :
    (view.spoiled position).byteAt position ≠ view.byteAt position := by
  have held : (view.spoiled position).Holds position [view.byteAt position + 1] :=
    holds_setAll inside
  rw [held.2.1]
  exact add_one_ne _

/-! ## Numbers -/

/-- The same number is read where the bytes that are read are the same. -/
theorem Mirrors.readNumber_eq {reach : Nat} (h : Mirrors reach view other) {position : UInt32}
    {length : Nat} (short : length ≤ 3)
    (inside : position.toNat + length ≤ view.length → position.toNat + length ≤ reach) :
    Bus.readNumber (.flat view) position length = Bus.readNumber (.flat other) position length := by
  rcases length with _ | _ | _ | _ | _
  · simp only [Bus.readNumber]
  · have byte := h.read8_eq inside
    simp only [Bus.readNumber, Bus.read8, byte]
  · have word := h.read16_eq inside
    simp only [Bus.readNumber, Bus.read16, word]
  · have long := h.read24_eq inside
    simp only [Bus.readNumber, Bus.read24, long]
  · omega

/-- A number that is read is another one when one of its bytes is. -/
theorem readNumber_spoiled {position : UInt32} {length i : Nat} (short : length ≤ 3)
    (room : position.toNat + length ≤ view.length) (bound : i < length) :
    ∃ value value', value ≠ value' ∧ Bus.readNumber (.flat view) position length = .ok value ∧
      Bus.readNumber (.flat (view.spoiled (position.toNat + i))) position length = .ok value' := by
  have begins : position.toNat ≤ view.length := by omega
  obtain ⟨value, first⟩ := (view.bounded_readNumber begins short).exists_ok room
  obtain ⟨value', second⟩ :=
    ((view.spoiled (position.toNat + i)).bounded_readNumber begins short).exists_ok room
  refine ⟨value, value', ?_, first, second⟩
  rintro rfl
  obtain ⟨-, holds⟩ := (Bus.readNumber_flat_eq_ok_iff view position value short).mp first
  obtain ⟨-, holds'⟩ := (Bus.readNumber_flat_eq_ok_iff _ position value short).mp second
  have inside : i < (littleEndian value length).length := by
    rwa [length_littleEndian value short]
  apply @byteAt_spoiled_ne view (position.toNat + i) (by omega)
  rw [holds.byteAt inside, holds'.byteAt inside]

end View

end W65C816
