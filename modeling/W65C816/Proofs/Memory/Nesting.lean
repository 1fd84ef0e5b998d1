import W65C816.Proofs.Memory.Bytes

/-!
# Views cut from views

A view is cut from a memory or from a view, and `View.Cut` follows a chain of such cuts, with the
memory being written to between them. A cut checks only where it begins and ends in the view that it
is cut from. So a view lies in the view around it, by induction on the chain in every view of the
chain, and in the memory: `View.nests_soundly`. What is read at a position of the view is then a
byte of the memory, counted from the start of that view.

A view begins at a byte of the memory even if it has no bytes of its own, and from such a view
nothing more is cut. Two cuts, one after the other, are one cut: `View.slice_slice`.
-/

set_option autoImplicit false

namespace W65C816.View

variable {memory : Memory} {view part middle around : View} {start offset length : Nat}
  {outer : List View}

/-! ## Cutting -/

/-- A view is known by its memory and where it lies in it. -/
theorem eq_of_extent (memory : part.memory = view.memory) (start : part.start = view.start)
    (length : part.length = view.length) : part = view := by
  obtain ⟨_, _, _, _, _⟩ := part
  obtain ⟨_, _, _, _, _⟩ := view
  subst memory start length
  rfl

/-- A window is cut from a memory wherever it fits. -/
theorem window_eq_ok_iff :
    window memory start length = .ok view ↔
      (start < memory.size ∧ start + length ≤ memory.size) ∧
        view.memory = memory ∧ view.start = start ∧ view.length = length := by
  unfold window
  split
  · next fits =>
    rw [Except.ok.injEq]
    constructor
    · rintro rfl
      exact ⟨fits, rfl, rfl, rfl⟩
    · rintro ⟨-, same, begins, long⟩
      exact (eq_of_extent same begins long).symm
  · next apart => exact ⟨nofun, fun h => absurd h.1 apart⟩

/-- A part that fits into a view is a window of the memory behind the view. That it fits into the
memory needs no check of its own. -/
theorem slice_eq_window (fits : offset < view.length ∧ offset + length ≤ view.length) :
    view.slice offset length = window view.memory (view.start + offset) length := by
  have inside := view.end_le
  have room : view.start + offset < view.memory.size ∧
      view.start + offset + length ≤ view.memory.size := by omega
  rw [slice, dif_pos fits, window, dif_pos room]

/-- A part is cut from a view wherever it fits. -/
theorem slice_eq_ok_iff :
    view.slice offset length = .ok part ↔
      (offset < view.length ∧ offset + length ≤ view.length) ∧
        part.memory = view.memory ∧ part.start = view.start + offset ∧ part.length = length := by
  by_cases fits : offset < view.length ∧ offset + length ≤ view.length
  · have inside := view.end_le
    rw [slice_eq_window fits, window_eq_ok_iff]
    constructor
    · exact fun h => ⟨fits, h.2⟩
    · exact fun h => ⟨by omega, h.2⟩
  · rw [slice, dif_neg fits]
    exact ⟨nofun, fun h => absurd h.1 fits⟩

/-- A slice can be cut if it begins and ends inside the view. -/
theorem exists_slice_iff :
    (∃ part, view.slice offset length = .ok part) ↔
      offset < view.length ∧ offset + length ≤ view.length := by
  constructor
  · rintro ⟨part, cut⟩
    exact (slice_eq_ok_iff.mp cut).1
  · intro fits
    exact ⟨_, dif_pos fits⟩

/-- So 64 bits hold the end of a part. -/
theorem end_lt_of_slice (cut : view.slice offset length = .ok part) :
    offset + length < UInt64.size := by
  obtain ⟨⟨-, fits⟩, -⟩ := slice_eq_ok_iff.mp cut
  have bound := view.length_le
  simp only [Memory.greatestSize] at bound
  simp only [UInt64.size]
  omega

/-- A part of a part is a part of the whole. -/
theorem slice_slice {offset' length' : Nat} (first : view.slice offset length = .ok middle)
    (second : middle.slice offset' length' = .ok part) :
    view.slice (offset + offset') length' = .ok part := by
  obtain ⟨fits, memory, start, long⟩ := slice_eq_ok_iff.mp first
  obtain ⟨fits', memory', start', long'⟩ := slice_eq_ok_iff.mp second
  refine slice_eq_ok_iff.mpr ⟨by omega, memory'.trans memory, ?_, long'⟩
  rw [start', start, Nat.add_assoc]

/-! ## Chains of cuts -/

/-- The view lies in another one. -/
structure Within (view around : View) : Prop where
  start_le : around.start ≤ view.start
  end_le : view.start + view.length ≤ around.start + around.length

/-- A part of a part is a part. -/
theorem Within.trans (inner : part.Within view) (outer : view.Within around) :
    part.Within around where
  start_le := Nat.le_trans outer.start_le inner.start_le
  end_le := Nat.le_trans inner.end_le outer.end_le

/-- A slice is a part of the view that it was cut from. -/
theorem within_of_slice (cut : view.slice offset length = .ok part) : part.Within view := by
  obtain ⟨fits, -, start, long⟩ := slice_eq_ok_iff.mp cut
  exact ⟨by omega, by omega⟩

/-- The view was cut from the memory, or from the first of some views around it, which were cut from
one another. Bytes of the memory may have been written since, through whatever view. -/
inductive Cut : Memory → View → List View → Prop
  | whole (memory : Memory) : Cut memory (whole memory) []
  | window {memory : Memory} {start length : Nat} {view : View}
    (cut : window memory start length = .ok view) : Cut memory view []
  | slice {memory : Memory} {view part : View} {outer : List View} {offset length : Nat}
    (chain : Cut memory view outer) (cut : view.slice offset length = .ok part) :
    Cut memory part (view :: outer)
  | written {memory : Memory} {view : View} {outer : List View} (index : Nat) (values : List UInt8)
    (chain : Cut memory view outer) :
    Cut (memory.setAll index values) (view.setAll index values) outer

/-- All views of a chain show the same memory. -/
theorem Cut.memory_eq (chain : Cut memory view outer) : view.memory = memory := by
  induction chain with
  | whole memory => rfl
  | window cut => exact (window_eq_ok_iff.mp cut).2.1
  | slice chain cut ih => exact (slice_eq_ok_iff.mp cut).2.1.trans ih
  | written index values chain ih => rw [memory_setAll, ih]

/-- A view lies in each of the views around it. By induction on the chain: a cut stays in the view
that it is made in, and a write moves no view. -/
theorem Cut.within (chain : Cut memory view outer) : ∀ around ∈ outer, view.Within around := by
  induction chain with
  | whole | window => exact fun _ member => nomatch member
  | slice chain cut ih =>
    have first := within_of_slice cut
    refine List.forall_mem_cons.mpr ⟨first, fun around member => ?_⟩
    exact first.trans (ih around member)
  | written index values chain ih =>
    intro around member
    have inside := ih around member
    exact ⟨inside.start_le, inside.end_le⟩

/-! ## Nesting -/

/-- A view at the end of any chain of cuts lies in the memory and in each of the views around it.
Its positions are the bytes of the memory from its start on: a byte is read or written there exactly
if the position lies in the view. A part is cut from it exactly if it begins and ends in the view,
the end being a number that 64 bits hold. It lies where it was cut and is as long, and a part of it
is a part of the view. -/
theorem nests_soundly (chain : Cut memory view outer) :
    (view.start < memory.size ∧ view.start + view.length ≤ memory.size) ∧
      (∀ around ∈ outer, view.Within around) ∧
      (∀ position value, view.read8 position = .ok value ↔
        position.toNat < view.length ∧ memory.byte (view.start + position.toNat) = value) ∧
      (∀ position value next, write8 position value view = .ok () next ↔
        position.toNat < view.length ∧ next = view.setAll (view.start + position.toNat) [value]) ∧
      (∀ offset length, (∃ part, view.slice offset length = .ok part) ↔
        offset < view.length ∧ offset + length ≤ view.length) ∧
      (∀ offset length part, view.slice offset length = .ok part →
        part.start = view.start + offset ∧ part.length = length ∧
          offset + length < UInt64.size) ∧
      (∀ offset length offset' length' middle part, view.slice offset length = .ok middle →
        middle.slice offset' length' = .ok part →
        view.slice (offset + offset') length' = .ok part) := by
  have same := chain.memory_eq
  refine ⟨?_, chain.within, fun position value => ?_,
    fun position value next => write8_eq_ok_iff view next position value,
    fun _ _ => exists_slice_iff, fun offset length part cut => ?_,
    fun _ _ _ _ _ _ first second => slice_slice first second⟩
  · rw [← same]
    exact ⟨view.start_lt, view.end_le⟩
  · rw [read8_eq_ok_iff, ← same]
    simp only [Holds, byteAt, and_true]
  · obtain ⟨-, -, begins, long⟩ := slice_eq_ok_iff.mp cut
    exact ⟨begins, long, end_lt_of_slice cut⟩

/-- The middle of the least memory, twice cut, with a byte written between the cuts. -/
theorem nests_soundly_in_the_middle :
    ∃ (memory : Memory) (window part last : View),
      Cut memory last [part.setAll 0x118 [0xAB], window] ∧
        last.start = 0x118 ∧ last.length = 8 ∧ last.read8 0 = .ok 0xAB ∧
        (∀ around ∈ [part.setAll 0x118 [0xAB], window], last.Within around) := by
  have size : Memory.least.size = 0x200 := Memory.size_least
  obtain ⟨window, cut⟩ : ∃ window, View.window Memory.least 0x100 0x100 = .ok window :=
    ⟨_, dif_pos (by omega)⟩
  obtain ⟨-, memory, start, long⟩ := window_eq_ok_iff.mp cut
  obtain ⟨part, cut'⟩ : ∃ part, window.slice 0x10 0x20 = .ok part := exists_slice_iff.mpr (by omega)
  obtain ⟨-, memory', start', long'⟩ := slice_eq_ok_iff.mp cut'
  have chain := ((Cut.window cut).slice cut').written 0x118 [0xAB]
  have begins : (part.setAll 0x118 [0xAB]).start = 0x110 := by
    rw [start_setAll, start', start]
  have lasts : (part.setAll 0x118 [0xAB]).length = 0x20 := by
    rw [length_setAll, long']
  obtain ⟨last, cut''⟩ : ∃ last, (part.setAll 0x118 [0xAB]).slice 8 8 = .ok last :=
    exists_slice_iff.mpr (by omega)
  obtain ⟨-, -, start'', long''⟩ := slice_eq_ok_iff.mp cut''
  have whole := chain.slice cut''
  obtain ⟨-, around, reads, -⟩ := nests_soundly whole
  have byte : (Memory.least.setAll 0x118 [0xAB]).byte 0x118 = 0xAB := by
    rw [Memory.setAll, Memory.setAll, Memory.byte_set, if_pos ⟨rfl, by omega⟩]
  have first : last.start = 0x118 := by rw [start'', begins]
  have read : last.read8 0 = .ok 0xAB := by
    refine (reads 0 0xAB).mpr ⟨by rw [long'']; decide, ?_⟩
    rw [first]
    exact byte
  exact ⟨_, window, part, last, whole, first, long'', read, around⟩

end W65C816.View
