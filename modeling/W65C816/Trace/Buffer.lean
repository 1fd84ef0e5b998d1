import W65C816.Trace.Entry

/-!
# Trace buffers

A buffer keeps the latest entries that were pushed, as many as its capacity, and forgets the older
ones: a push on a full buffer takes the oldest entry out first. A buffer of capacity zero keeps
nothing. `Buffer.toList` is its view, oldest entry first, and `toList_push` is all that a user has
to know of a push.
-/

set_option autoImplicit false

namespace W65C816.Trace

/-- The latest entries that were pushed, oldest first. -/
structure Buffer where
  capacity : Nat
  stored : Array Entry
  size_le : stored.size ≤ capacity

namespace Buffer

def empty (capacity : Nat) : Buffer where
  capacity
  stored := #[]
  size_le := Nat.zero_le _

/-- Whether the buffer keeps anything at all. -/
def isEnabled (buffer : Buffer) : Bool :=
  0 < buffer.capacity

def size (buffer : Buffer) : Nat :=
  buffer.stored.size

/-- The entries, oldest first. -/
def toList (buffer : Buffer) : List Entry :=
  buffer.stored.toList

/-- Adds an entry. When the buffer is full, the oldest entry goes. -/
def push (buffer : Buffer) (entry : Entry) : Buffer :=
  match buffer with
  | ⟨capacity, stored, size_le⟩ =>
    if none : capacity = 0 then ⟨capacity, stored, size_le⟩
    else if full : stored.size = capacity then
      ⟨capacity, (stored.extract 1).push entry, by
        rw [Array.size_push, Array.size_extract]; omega⟩
    else
      ⟨capacity, stored.push entry, by rw [Array.size_push]; omega⟩

def clear (buffer : Buffer) : Buffer :=
  empty buffer.capacity

/-- The last `count` entries, oldest first. -/
def recent (buffer : Buffer) (count : Nat) : List Entry :=
  buffer.toList.drop (buffer.size - count)

/-- The view has as many entries as the buffer. -/
@[simp] theorem length_toList (buffer : Buffer) : buffer.toList.length = buffer.size :=
  Array.length_toList

/-- A buffer never holds more entries than its capacity. -/
theorem size_le_capacity (buffer : Buffer) : buffer.size ≤ buffer.capacity :=
  buffer.size_le

/-- A push leaves the capacity as it is. -/
@[simp] theorem capacity_push (buffer : Buffer) (entry : Entry) :
    (buffer.push entry).capacity = buffer.capacity := by
  simp only [push]
  split
  · rfl
  · split <;> rfl

/-- After a push the buffer holds the last of its old entries and the new one. -/
theorem toList_push (buffer : Buffer) (entry : Entry) :
    (buffer.push entry).toList =
      (buffer.toList ++ [entry]).drop (buffer.size + 1 - buffer.capacity) := by
  obtain ⟨capacity, stored, size_le⟩ := buffer
  have length : stored.toList.length = stored.size := Array.length_toList
  simp only [push, size, toList]
  split
  · -- Nothing was kept before, and nothing is now.
    next none =>
    have nothing : stored.toList = [] := List.length_eq_zero_iff.mp (by omega)
    simp [none, nothing]
  · split
    · next full =>
      have one : stored.size + 1 - capacity = 1 := by omega
      have within : 1 ≤ stored.toList.length := by omega
      have all : (stored.toList.drop 1).length ≤ stored.size - 1 := by simp
      rw [one, List.drop_append_of_le_length within, Array.toList_push, Array.toList_extract,
        List.extract_eq_take_drop, List.take_of_length_le all]
    · next room =>
      have nothing : stored.size + 1 - capacity = 0 := by omega
      rw [nothing, List.drop_zero, Array.toList_push]

end Buffer

end W65C816.Trace
