import W65C816.Memory.Basic
import W65C816.Word

/-!
# Views

A view is a window onto a memory: it starts inside the memory, ends at its end at the latest, and
numbers its positions from zero. An access names a position and a number of bytes. It is checked
as a whole before a byte is touched, so an access that fails leaves every byte as it was; words
are read and written with the low byte first. `View.locate` is the only way from a position to an
index into the memory, and the start of the view is added there and nowhere else.
-/

set_option autoImplicit false

namespace W65C816

/-- A window onto a memory. -/
structure View where
  memory : Memory
  start : Nat
  length : Nat
  start_lt : start < memory.size
  end_le : start + length ≤ memory.size

namespace View

/-- The view of all of a memory. -/
def whole (memory : Memory) : View where
  memory
  start := 0
  length := memory.size
  start_lt := memory.size_pos
  end_le := Nat.le_of_eq (Nat.zero_add _)

/-- Where `length` bytes from `start` on end, as a number of 64 bits. -/
def endOf (start length : Nat) : Nat :=
  (start + length) % UInt64.size

/-- The view of `length` bytes of a memory from `start` on. -/
def window (memory : Memory) (start length : Nat) : Except Fault View :=
  if fits : start < memory.size ∧ start + length ≤ memory.size then
    .ok { memory, start, length, start_lt := fits.1, end_le := fits.2 }
  else
    .error (.outOfRange (endOf start length) memory.size)

/-- The part of a view that consists of `length` bytes from position `offset` on. -/
def slice (view : View) (offset length : Nat) : Except Fault View :=
  if fits : offset < view.length ∧ offset + length ≤ view.length then
    .ok {
      memory := view.memory
      start := view.start + offset
      length
      start_lt := by have := view.end_le; omega
      end_le := by have := view.end_le; omega }
  else
    .error (.outOfRange (endOf offset length) view.length)

/-- Fails unless each of `count` positions from `position` on lies in the view, and names the
first position if it is outside and the last one otherwise. The position itself has to lie in the
view even when no byte is asked for. -/
def check (view : View) (position : UInt32) (count : Nat) : Except Fault Unit :=
  if view.length ≤ position.toNat then
    .error (.outOfRange position.toNat view.length)
  else if view.length ≤ position.toNat + max count 1 - 1 then
    .error (.outOfRange (position.toNat + max count 1 - 1) view.length)
  else
    .ok ()

/-- The index into the memory at which an access of `count` bytes begins. -/
def locate (view : View) (position : UInt32) (count : Nat) : Except Fault Nat :=
  match view.check position count with
  | .ok _ => .ok (view.start + position.toNat)
  | .error fault => .error fault

/-- The byte at a position. -/
def read8 (view : View) (position : UInt32) : Except Fault UInt8 :=
  match view.locate position 1 with
  | .ok index => .ok (view.memory.byte index)
  | .error fault => .error fault

/-- The word at a position. -/
def read16 (view : View) (position : UInt32) : Except Fault UInt16 :=
  match view.locate position 2 with
  | .ok index => .ok (Word.join (view.memory.byte (index + 1)) (view.memory.byte index))
  | .error fault => .error fault

/-- The number of three bytes at a position. -/
def read24 (view : View) (position : UInt32) : Except Fault UInt32 :=
  match view.locate position 3 with
  | .ok index =>
    .ok (Address.ofBytes (view.memory.byte (index + 2)) (view.memory.byte (index + 1))
      (view.memory.byte index))
  | .error fault => .error fault

/-- The `count` bytes from a position on. No bytes can be read at any position. -/
def readBlock (view : View) (position : UInt32) (count : Nat) : Except Fault (List UInt8) :=
  if count = 0 then .ok []
  else match view.locate position count with
    | .ok index => .ok ((List.range count).map fun i => view.memory.byte (index + i))
    | .error fault => .error fault

/-- The view after a row of bytes is written into its memory from an index on. -/
def setAll (view : View) (index : Nat) (values : List UInt8) : View :=
  match view with
  | ⟨memory, start, length, start_lt, end_le⟩ =>
    ⟨memory.setAll index values, start, length, by rwa [Memory.size_setAll],
      by rwa [Memory.size_setAll]⟩

/-- Writes a row of bytes from a position on. -/
def write (position : UInt32) (values : List UInt8) : EStateM Fault View Unit := fun view =>
  match view.locate position values.length with
  | .ok index => .ok () (view.setAll index values)
  | .error fault => .error fault view

/-- Writes a byte. -/
def write8 (position : UInt32) (value : UInt8) : EStateM Fault View Unit :=
  write position [value]

/-- Writes a word. -/
def write16 (position : UInt32) (value : UInt16) : EStateM Fault View Unit :=
  write position [Word.low value, Word.high value]

/-- Writes the low three bytes of a number. -/
def write24 (position : UInt32) (value : UInt32) : EStateM Fault View Unit :=
  write position [Address.low value, Address.middle value, Address.bank value]

/-- Writes a row of bytes of any length. No bytes can be written at any position. -/
def writeBlock (position : UInt32) (values : List UInt8) : EStateM Fault View Unit :=
  if values.isEmpty then pure () else write position values

/-- Copies an image into the memory behind the view. The offset counts from the beginning of the
memory, not of the view. -/
def load (offset : Nat) (image : ByteArray) : EStateM Fault View Unit
  | ⟨memory, start, length, start_lt, end_le⟩ =>
    if fits : offset + image.size ≤ memory.size then
      .ok () ⟨memory.place offset image fits, start, length, by rwa [Memory.size_place],
        by rwa [Memory.size_place]⟩
    else
      .error (memory.loadFault offset image) ⟨memory, start, length, start_lt, end_le⟩

/-- Setting bytes leaves the start of a view in place. -/
@[simp] theorem start_setAll (view : View) (index : Nat) (values : List UInt8) :
    (view.setAll index values).start = view.start := rfl

/-- Setting bytes keeps the length of a view. -/
@[simp] theorem length_setAll (view : View) (index : Nat) (values : List UInt8) :
    (view.setAll index values).length = view.length := rfl

/-- Setting bytes of a view sets them in the memory that it shows. -/
@[simp] theorem memory_setAll (view : View) (index : Nat) (values : List UInt8) :
    (view.setAll index values).memory = view.memory.setAll index values := rfl

/-- An access of at least one byte is admitted exactly when its last position lies in the view. -/
theorem check_eq_ok_iff (view : View) (position : UInt32) (count : Nat) :
    view.check position count = .ok () ↔ position.toNat + max count 1 ≤ view.length := by
  unfold check
  split
  · simp; omega
  · split <;> simp <;> omega

/-- A located access lies inside the window. -/
theorem locate_eq_ok_iff (view : View) (position : UInt32) (count index : Nat) :
    view.locate position count = .ok index ↔
      index = view.start + position.toNat ∧ position.toNat + max count 1 ≤ view.length := by
  unfold locate
  split
  · next h => rw [check_eq_ok_iff] at h; simp [h, eq_comm]
  · next h =>
    have := (not_congr (check_eq_ok_iff view position count)).mp (by simp [h])
    simp [this]

end View

end W65C816
