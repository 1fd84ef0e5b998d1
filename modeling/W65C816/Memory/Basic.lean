import W65C816.Fault

/-!
# Memory

A memory is a row of bytes whose size is fixed when it is created and lies between two bounds. Its
view is the function `Memory.byte`, which is zero outside the memory, so that reading is total;
each operation is described by what it does to that function. Which positions may be accessed is
decided by the views of `W65C816.Memory.View`, not here.
-/

set_option autoImplicit false

namespace W65C816

/-- The least size of a memory: the direct page and the stack page. -/
def Memory.leastSize : Nat := 0x200

/-- The greatest size of a memory, 64 MiB. -/
def Memory.greatestSize : Nat := 0x4000000

/-- A row of bytes of an admissible size. -/
structure Memory where
  bytes : ByteArray
  leastSize_le : Memory.leastSize ≤ bytes.size
  size_le : bytes.size ≤ Memory.greatestSize

namespace Memory

/-- The bytes of `row` followed by `count` zeros. -/
def pushZeros (row : ByteArray) : Nat → ByteArray
  | 0 => row
  | count + 1 => pushZeros (row.push 0) count

/-- Each zero that is appended is one byte more. -/
@[simp] theorem size_pushZeros (row : ByteArray) (count : Nat) :
    (pushZeros row count).size = row.size + count := by
  induction count generalizing row with
  | zero => rfl
  | succ count ih => rw [pushZeros, ih, ByteArray.size_push]; omega

/-- A memory of the given size with every byte zero. -/
def create (size : Nat) : Except Fault Memory :=
  if bounds : leastSize ≤ size ∧ size ≤ greatestSize then
    .ok {
      bytes := pushZeros (ByteArray.emptyWithCapacity size) size
      leastSize_le := by rw [size_pushZeros]; exact Nat.le_trans bounds.1 (Nat.le_add_left ..)
      size_le := by
        rw [size_pushZeros]
        exact Nat.le_trans (Nat.le_of_eq (Nat.zero_add size)) bounds.2 }
  else
    .error (.invalidOperation (.memorySize size leastSize greatestSize))

/-- The smallest memory, with every byte zero. -/
def least : Memory where
  bytes := ⟨Array.replicate leastSize 0⟩
  leastSize_le := by simp [ByteArray.size]
  size_le := by simp [ByteArray.size, leastSize, greatestSize]

/-- The number of bytes. -/
def size (memory : Memory) : Nat :=
  memory.bytes.size

/-- The least memory has 512 bytes. -/
theorem size_least : least.size = 0x200 := by
  simp [size, least, ByteArray.size, leastSize]

/-- Memory is never empty, since it holds the least memory. -/
theorem size_pos (memory : Memory) : 0 < memory.size :=
  Nat.lt_of_lt_of_le (by decide) memory.leastSize_le

/-- The byte at an index, and zero outside the memory. -/
def byte (memory : Memory) (index : Nat) : UInt8 :=
  if h : index < memory.bytes.size then memory.bytes[index] else 0

/-- The least memory is all zero. -/
theorem byte_least (index : Nat) : least.byte index = 0 := by
  unfold byte least
  split
  · simp [ByteArray.getElem_eq_getElem_data]
  · rfl

/-- Replacing a byte of a row keeps its size. -/
theorem size_replace (row : ByteArray) (index : Nat) (value : UInt8) (h : index < row.size) :
    (row.set index value h).size = row.size := by
  simp only [ByteArray.size, ByteArray.data_set, Array.size_set]

/-- Replacing a byte of a row changes it at that index only. -/
theorem getElem_replace (row : ByteArray) (index : Nat) (value : UInt8) (h : index < row.size)
    (i : Nat) (hi : i < row.size) (_ : i < (row.set index value h).size) :
    (row.set index value h)[i] = if index = i then value else row[i] := by
  simp only [ByteArray.getElem_eq_getElem_data, ByteArray.data_set, Array.getElem_set]

/-- The memory with one byte replaced. Outside the memory nothing happens. -/
def set (memory : Memory) (index : Nat) (value : UInt8) : Memory :=
  match memory with
  | ⟨bytes, least, greatest⟩ =>
    if h : index < bytes.size then
      ⟨bytes.set index value h, by rwa [size_replace], by rwa [size_replace]⟩
    else ⟨bytes, least, greatest⟩

/-- The memory with a row of bytes written from an index on. -/
def setAll (memory : Memory) (index : Nat) : List UInt8 → Memory
  | [] => memory
  | value :: rest => (memory.set index value).setAll (index + 1) rest

/-- Setting a byte keeps the size of memory. -/
@[simp] theorem size_set (memory : Memory) (index : Nat) (value : UInt8) :
    (memory.set index value).size = memory.size := by
  obtain ⟨bytes, _, _⟩ := memory
  simp only [set, size]
  split
  · exact size_replace ..
  · rfl

/-- Setting several bytes keeps the size of memory. -/
@[simp] theorem size_setAll (memory : Memory) (index : Nat) (values : List UInt8) :
    (memory.setAll index values).size = memory.size := by
  induction values generalizing memory index with
  | nil => rfl
  | cons value rest ih => rw [setAll, ih, size_set]

/-- A byte that is set reads back, if it is in memory, and the others stay. -/
theorem byte_set (memory : Memory) (index : Nat) (value : UInt8) (i : Nat) :
    (memory.set index value).byte i =
      if i = index ∧ index < memory.size then value else memory.byte i := by
  unfold set size byte
  by_cases inside : index < memory.bytes.size
  · by_cases same : index = i
    · subst same
      simp [inside, size_replace, getElem_replace]
    · by_cases within : i < memory.bytes.size <;>
        simp [inside, within, same, Ne.symm same, size_replace, getElem_replace]
  · simp [inside]

/-- The memory with an image copied into it from an offset on. -/
def place (memory : Memory) (offset : Nat) (image : ByteArray)
    (fits : offset + image.size ≤ memory.size) : Memory :=
  match memory, fits with
  | ⟨bytes, least, greatest⟩, fits =>
    have same : (image.copySlice 0 bytes offset image.size).size = bytes.size := by
      have fits : offset + image.size ≤ bytes.size := fits
      simp [ByteArray.copySlice_eq_append, ByteArray.size_append]
      omega
    ⟨image.copySlice 0 bytes offset image.size, by rwa [same], by rwa [same]⟩

/-- Placing an image that fits keeps the size of memory. -/
@[simp] theorem size_place (memory : Memory) (offset : Nat) (image : ByteArray)
    (fits : offset + image.size ≤ memory.size) :
    (memory.place offset image fits).size = memory.size := by
  have fits' : offset + image.size ≤ memory.bytes.size := fits
  simp [place, size, ByteArray.copySlice_eq_append, ByteArray.size_append]
  omega

/-- The fault of an image that does not fit into a memory. A position beyond 64 bits is reported as
the greatest number of 64 bits. -/
def loadFault (memory : Memory) (offset : Nat) (image : ByteArray) : Fault :=
  .outOfRange (min (offset + image.size) (UInt64.size - 1)) memory.size

/-- Copies an image into the memory, from an offset on. The whole image has to fit. -/
def load (memory : Memory) (offset : Nat) (image : ByteArray) : Except Fault Memory :=
  if fits : offset + image.size ≤ memory.size then .ok (memory.place offset image fits)
  else .error (memory.loadFault offset image)

end Memory

end W65C816
