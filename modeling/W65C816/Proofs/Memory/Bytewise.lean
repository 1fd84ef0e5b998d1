import W65C816.Proofs.Memory.AllOrNothing

/-!
# Accesses of a flat view, and accesses byte by byte

A flat view finds the range of an access once and then reads or writes all of it. Byte by byte the
whole range is checked too, and then each byte is found anew. The two ways find the same faults,
since both begin with the same check, and behind it every position of the range names the byte that
the other way comes to. So they are one: `View.bytewise_agrees`.

An access to no bytes is the exception. The check takes it for an access to one byte, so byte by
byte it fails outside of the view, while the view has nothing to find for it and always succeeds:
`View.not_bytewise_agrees`.
-/

set_option autoImplicit false

namespace W65C816

open Bytewise (positions)

/-! ## Reading byte by byte -/

/-- What is asked of each item of a list is answered for the list. -/
theorem Bytewise.mapM_of_ok {α β ε : Type} {question : α → Except ε β} {answer : α → β}
    {items : List α} (h : ∀ item ∈ items, question item = .ok (answer item)) :
    items.mapM question = .ok (items.map answer) := by
  induction items with
  | nil => rfl
  | cons item rest ih =>
    obtain ⟨first, others⟩ := List.forall_mem_cons.mp h
    rw [List.mapM_cons, first, ih others]
    rfl

/-- Bytes that can be read one by one are read in their order. -/
theorem Bytewise.mapM_read8 {bus : Bus} {position : UInt32} {count : Nat} {byte : Nat → UInt8}
    (h : ∀ k < count, bus.read8 (position + UInt32.ofNat k) = .ok (byte k)) :
    (positions position count).mapM bus.read8 = .ok ((List.range count).map byte) := by
  have each : (List.range count).mapM (fun k => bus.read8 (position + UInt32.ofNat k)) =
      .ok ((List.range count).map byte) :=
    mapM_of_ok fun k member => h k (List.mem_range.mp member)
  rw [positions, List.mapM_map]
  exact each

namespace View

variable {view : View} {position : UInt32} {count : Nat}

/-- Behind the check of a range each of its positions names the next byte of the memory. -/
theorem read8_of_check (checked : view.check position count = .ok ()) {k : Nat}
    (bound : k < max count 1) :
    (Bus.flat view).read8 (position + UInt32.ofNat k) =
      .ok (view.memory.byte (view.start + position.toNat + k)) := by
  have room := (view.check_eq_ok_iff position count).mp checked
  have here : (position + UInt32.ofNat k).toNat = position.toNat + k :=
    view.toNat_add_ofNat (by omega)
  refine ((Bus.flat view).read8_eq_ok_iff _ _).mpr ⟨_, ?_, rfl⟩
  refine (view.index?_eq_some_iff _ _).mpr ⟨by omega, ?_⟩
  rw [here, Nat.add_assoc]

/-! ## Reads -/

/-- On a flat view, a word is read as its bytes are. -/
theorem bytewise_read16 (view : View) (position : UInt32) :
    Bytewise.read16 (.flat view) position = view.read16 position := by
  simp only [Bytewise.read16, View.read16, View.locate, Bus.check]
  cases checked : view.check position 2 with
  | error fault => rfl
  | ok _ =>
    have low := read8_of_check checked (k := 0) (by decide)
    have high := read8_of_check checked (k := 1) (by decide)
    rw [Bytewise.add_ofNat_zero] at low
    change (Bus.flat view).read8 (position + 1) = _ at high
    simp only [low, high]
    rfl

/-- On a flat view, an address is read as its bytes are. -/
theorem bytewise_read24 (view : View) (position : UInt32) :
    Bytewise.read24 (.flat view) position = view.read24 position := by
  simp only [Bytewise.read24, View.read24, View.locate, Bus.check]
  cases checked : view.check position 3 with
  | error fault => rfl
  | ok _ =>
    have low := read8_of_check checked (k := 0) (by decide)
    have middle := read8_of_check checked (k := 1) (by decide)
    have high := read8_of_check checked (k := 2) (by decide)
    rw [Bytewise.add_ofNat_zero] at low
    change (Bus.flat view).read8 (position + 1) = _ at middle
    change (Bus.flat view).read8 (position + 2) = _ at high
    simp only [low, middle, high]
    rfl

/-- On a flat view, a row that is not empty is read as its bytes are. -/
theorem bytewise_readBlock (view : View) (position : UInt32) (positive : 0 < count) :
    Bytewise.readBlock (.flat view) position count = view.readBlock position count := by
  have some : count ≠ 0 := Nat.ne_of_gt positive
  simp only [Bytewise.readBlock, View.readBlock, View.locate, Bus.check, if_neg some]
  cases checked : view.check position count with
  | error fault => rfl
  | ok _ =>
    exact Bytewise.mapM_read8 fun k bound => read8_of_check checked (by omega)

end View

/-! ## Writes -/

/-- On every bus a row is written as byte by byte. -/
theorem Bus.bytewise_write (position : UInt32) {row : List UInt8} (nonempty : row ≠ [])
    (bus : Bus) : Bytewise.write position row bus = writeBlock position row bus := by
  have positive : 0 < row.length := List.length_pos_iff.mpr nonempty
  cases checked : bus.check position row.length with
  | error fault =>
    rw [writeBlock_of_unreachable nonempty checked]
    simp only [Bytewise.write, Action.bind_apply, Action.look, checked]
  | ok _ =>
    rw [writeBlock_of_named nonempty ((bus.check_eq_ok_iff position positive).mp checked)]
    simp only [Bytewise.write, Action.bind_apply, Action.look, checked, forM_positions]

namespace View

/-! ## Accesses to no bytes -/

/-- The check of no bytes is that of one. -/
theorem check_zero (view : View) (position : UInt32) :
    view.check position 0 =
      if view.length ≤ position.toNat then .error (.outOfRange position.toNat view.length)
      else .ok () := by
  unfold check
  split
  · rfl
  · next inside => rw [if_neg (by omega)]

/-- Byte by byte, reading nothing is still refused outside of the view. -/
theorem bytewise_readBlock_zero (view : View) (position : UInt32) :
    Bytewise.readBlock (.flat view) position 0 =
      if view.length ≤ position.toNat then .error (.outOfRange position.toNat view.length)
      else .ok [] := by
  simp only [Bytewise.readBlock, Bus.check, check_zero]
  split <;> rfl

/-- Byte by byte, writing nothing is still refused outside of the view. -/
theorem bytewise_write_nil (view : View) (position : UInt32) :
    Bytewise.write position [] (.flat view) =
      if view.length ≤ position.toNat then
        .error (.outOfRange position.toNat view.length) (.flat view)
      else .ok () (.flat view) := by
  simp only [Bytewise.write, Action.bind_apply, Action.look, Bus.check, List.length_nil, check_zero]
  by_cases outside : view.length ≤ position.toNat
  · simp only [if_pos outside]
  · simp only [if_neg outside]
    rfl

/-! ## Agreement -/

/-- Whatever is read or written by an access of a flat view is read or written by the same access
byte by byte, with the same fault where there is one. This is so of numbers, and of rows exactly if
they are not empty or lie in the view. An empty row out of the view is read and written without a
fault by the view, and byte by byte it is refused. -/
theorem bytewise_agrees (view : View) (position : UInt32) :
    Bytewise.read16 (.flat view) position = Bus.read16 (.flat view) position ∧
      Bytewise.read24 (.flat view) position = Bus.read24 (.flat view) position ∧
      (∀ value, Bytewise.write16 position value (.flat view) =
        Bus.write16 position value (.flat view)) ∧
      (∀ value, Bytewise.write24 position value (.flat view) =
        Bus.write24 position value (.flat view)) ∧
      (∀ count, Bytewise.readBlock (.flat view) position count =
          Bus.readBlock (.flat view) position count ↔
        0 < count ∨ position.toNat < view.length) ∧
      (∀ row, Bytewise.write position row (.flat view) =
          Bus.writeBlock position row (.flat view) ↔
        row ≠ [] ∨ position.toNat < view.length) ∧
      (view.length ≤ position.toNat →
        Bus.readBlock (.flat view) position 0 = .ok [] ∧
        Bytewise.readBlock (.flat view) position 0 =
          .error (.outOfRange position.toNat view.length) ∧
        Bus.writeBlock position [] (.flat view) = .ok () (.flat view) ∧
        Bytewise.write position [] (.flat view) =
          .error (.outOfRange position.toNat view.length) (.flat view)) := by
  refine ⟨view.bytewise_read16 position, view.bytewise_read24 position, fun value => ?_,
    fun value => ?_, fun count => ?_, fun row => ?_, fun outside => ?_⟩
  · rw [Bus.write16_eq_writeBlock]
    exact Bus.bytewise_write position (List.cons_ne_nil _ _) _
  · rw [Bus.write24_eq_writeBlock]
    exact Bus.bytewise_write position (List.cons_ne_nil _ _) _
  · rcases Nat.eq_zero_or_pos count with rfl | positive
    · rw [bytewise_readBlock_zero]
      by_cases outside : view.length ≤ position.toNat
      · rw [if_pos outside]
        exact iff_of_false nofun (by omega)
      · rw [if_neg outside]
        exact iff_of_true rfl (.inr (Nat.lt_of_not_le outside))
    · exact iff_of_true (view.bytewise_readBlock position positive) (.inl positive)
  · by_cases empty : row = []
    · subst empty
      rw [bytewise_write_nil]
      by_cases outside : view.length ≤ position.toNat
      · rw [if_pos outside]
        exact iff_of_false nofun fun h => h.elim (absurd rfl) (Nat.not_lt_of_le outside)
      · rw [if_neg outside]
        exact iff_of_true rfl (.inr (Nat.lt_of_not_le outside))
    · exact iff_of_true (Bus.bytewise_write position empty _) (.inl empty)
  · rw [bytewise_readBlock_zero, bytewise_write_nil, if_pos outside, if_pos outside]
    exact ⟨rfl, rfl, rfl, rfl⟩

/-- At the end of a view a word that would go beyond it is refused both ways, and a row of no bytes
byte by byte alone. -/
theorem bytewise_agrees_at_end :
    let view := whole Memory.least
    Bytewise.read16 (.flat view) 0x1FF = Bus.read16 (.flat view) 0x1FF ∧
      view.length ≤ (0x200 : UInt32).toNat ∧
      Bus.writeBlock 0x200 [] (.flat view) = .ok () (.flat view) ∧
      Bytewise.write 0x200 [] (.flat view) =
        .error (.outOfRange (0x200 : UInt32).toNat view.length) (.flat view) := by
  intro view
  have length : view.length = 0x200 := Memory.size_least
  have outside : view.length ≤ (0x200 : UInt32).toNat := Nat.le_of_eq length
  obtain ⟨word, -⟩ := view.bytewise_agrees 0x1FF
  obtain ⟨-, -, -, -, -, -, beyond⟩ := view.bytewise_agrees 0x200
  obtain ⟨-, -, own, each⟩ := beyond outside
  exact ⟨word, outside, own, each⟩

/-- So not every access agrees: rows of no bytes at the end of a view do not. -/
theorem not_bytewise_agrees :
    let bus := Bus.flat (whole Memory.least)
    Bus.readBlock bus 0x200 0 = .ok [] ∧
      Bytewise.readBlock bus 0x200 0 = .error (.outOfRange 0x200 0x200) ∧
      Bus.writeBlock 0x200 [] bus = .ok () bus ∧
      Bytewise.write 0x200 [] bus = .error (.outOfRange 0x200 0x200) bus := by
  intro bus
  have length : (whole Memory.least).length = 0x200 := Memory.size_least
  have outside : (whole Memory.least).length ≤ (0x200 : UInt32).toNat := Nat.le_of_eq length
  have read := bytewise_readBlock_zero (whole Memory.least) 0x200
  have write := bytewise_write_nil (whole Memory.least) 0x200
  rw [if_pos outside, length] at read write
  exact ⟨rfl, read, rfl, write⟩

end View

end W65C816
