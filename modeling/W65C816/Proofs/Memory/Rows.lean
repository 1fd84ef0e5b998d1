import W65C816.Proofs.Execution.Frame
import W65C816.Proofs.Memory.Bytes

/-!
# Rows of bytes on a bus

`Bus.Holds` says that a row of bytes is read from a bus byte by byte, from a position on. A row that
was written is held, on a flat bus as well as on a banked one: `Bus.holds_of_writeBlock`. On a
banked bus the bytes are written one after another, and many addresses stand for one position, so
the bytes that come later must not lie where the earlier ones do. They do not as long as the row is
no longer than a bank, since an address and the position that it stands for have the same offset.
-/

set_option autoImplicit false

namespace W65C816

/-! ## Positions -/

namespace Bytewise

/-- A row begins at its position. -/
theorem add_ofNat_zero (position : UInt32) : position + UInt32.ofNat 0 = position :=
  UInt32.add_zero position

/-- A row goes on at the next position. -/
theorem add_ofNat_succ (position : UInt32) (i : Nat) :
    position + UInt32.ofNat (i + 1) = position + 1 + UInt32.ofNat i := by
  rw [UInt32.ofNat_add, UInt32.add_comm (UInt32.ofNat i), ← UInt32.add_assoc]
  rfl

/-- The positions of a row are its first and those of the rest. -/
theorem positions_succ (position : UInt32) (count : Nat) :
    positions position (count + 1) = position :: positions (position + 1) count := by
  unfold positions
  rw [List.range_succ_eq_map, List.map_cons, List.map_map, add_ofNat_zero]
  congr 1
  apply List.map_congr_left
  intro i _
  exact add_ofNat_succ position i

/-- Addresses that are less than a bank apart have different offsets. -/
theorem offset_add_ne (position : UInt32) {i : Nat} (positive : 0 < i) (short : i < 65536) :
    Address.offset (position + UInt32.ofNat i) ≠ Address.offset position := by
  intro same
  have offsets := congrArg UInt16.toNat same
  simp [Address.offset] at offsets
  omega

end Bytewise

open Bytewise (add_ofNat_zero add_ofNat_succ positions_succ offset_add_ne)

/-! ## Views -/

/-- Outside the row that was written every byte is read as it was. -/
theorem View.read8_setAll_of_outside {view : View} {position : Nat} {values : List UInt8}
    {other : UInt32} (outside : other.toNat < position ∨ position + values.length ≤ other.toNat) :
    (view.setAll (view.start + position) values).read8 other = view.read8 other := by
  have byte := view.byteAt_setAll_of_outside outside
  have place : (view.setAll (view.start + position) values).locate other 1 =
      view.locate other 1 := rfl
  unfold read8
  rw [place]
  split
  · next located =>
    obtain ⟨rfl, -⟩ := room_of_locate Nat.one_pos located
    exact congrArg Except.ok byte
  · rfl

/-! ## Banked views -/

namespace Banked

variable {wram next : View} {address : UInt32} {value : UInt8}

/-- An address and the position that it stands for have the same offset within their banks. -/
theorem offset_of_position? {position : UInt32} (h : position? address = some position) :
    Address.offset position = Address.offset address := by
  unfold position? at h
  simp only [] at h
  split at h
  · obtain rfl := Option.some.inj h
    exact Address.offset_ofBank _ _
  · split at h
    · cases h
    · obtain rfl := Option.some.inj h
      apply UInt16.toNat.inj
      simp [Address.offset]

/-- An address resolves if it shows work memory and the view extends so far. -/
theorem resolve_eq_ok_iff (wram : View) (address position : UInt32) :
    resolve wram address = .ok position ↔
      position? address = some position ∧ position.toNat < wram.length := by
  unfold resolve
  cases found : position? address with
  | none => simp
  | some here =>
    have inside := wram.check_eq_ok_iff here 1
    simp only [Option.some.injEq]
    constructor
    · intro h
      split at h
      · next room =>
        obtain rfl := Except.ok.inj h
        exact ⟨rfl, inside.mp room⟩
      · cases h
    · rintro ⟨rfl, room⟩
      rw [inside.mpr room]

/-- A byte that was written is read at its address, and bytes at other offsets are as they were. -/
theorem read8_of_write8 (h : write8 address value wram = .ok () next) :
    read8 next address = .ok value ∧
      ∀ other, Address.offset other ≠ Address.offset address →
        read8 next other = read8 wram other := by
  unfold write8 at h
  split at h
  · next position found =>
    obtain ⟨here, -⟩ := (resolve_eq_ok_iff wram address position).mp found
    obtain ⟨inside, rfl⟩ := (View.write8_eq_ok_iff wram next position value).mp h
    have same (other : UInt32) :
        resolve (wram.setAll (wram.start + position.toNat) [value]) other = resolve wram other :=
      rfl
    constructor
    · unfold read8
      rw [same, found]
      exact (View.read8_eq_ok_iff _ _ _).mpr (View.holds_setAll inside)
    · intro other apart
      unfold read8
      rw [same]
      split
      · next position' found' =>
        obtain ⟨there, -⟩ := (resolve_eq_ok_iff wram other position').mp found'
        have distinct : position'.toNat ≠ position.toNat := by
          intro equal
          apply apart
          rw [← offset_of_position? there, ← offset_of_position? here, UInt32.toNat.inj equal]
        apply View.read8_setAll_of_outside
        rw [List.length_singleton]
        omega
      · rfl
  · cases h

/-- A row of bytes that can be read passes its check. -/
theorem checkEach_of_read8 {count : Nat}
    (h : ∀ i < count, ∃ value, read8 wram (address + UInt32.ofNat i) = .ok value) :
    checkEach wram address count = .ok () := by
  induction count generalizing address with
  | zero => rfl
  | succ count ih =>
    obtain ⟨value, first⟩ := h 0 (Nat.succ_pos count)
    have rest (i : Nat) (bound : i < count) :
        ∃ value, read8 wram (address + 1 + UInt32.ofNat i) = .ok value := by
      have later := h (i + 1) (Nat.succ_lt_succ bound)
      rw [add_ofNat_succ] at later
      exact later
    rw [add_ofNat_zero] at first
    unfold read8 at first
    split at first
    · next found =>
      simp only [checkEach, found]
      exact ih rest
    · cases first

end Banked

/-! ## Buses -/

namespace Bus

variable {bus other after : Bus} {position : UInt32} {values : List UInt8}

/-- The row of bytes is read from the bus, from a position on. -/
def Holds (bus : Bus) : UInt32 → List UInt8 → Prop
  | _, [] => True
  | position, value :: rest => bus.read8 position = .ok value ∧ bus.Holds (position + 1) rest

/-- The bytes of a row that is held can be read. -/
theorem Holds.read8 (h : bus.Holds position values) {i : Nat} (bound : i < values.length) :
    bus.read8 (position + UInt32.ofNat i) = .ok values[i] := by
  induction values generalizing position i with
  | nil => cases bound
  | cons value rest ih =>
    cases i with
    | zero =>
      rw [add_ofNat_zero]
      exact h.1
    | succ i =>
      rw [add_ofNat_succ]
      exact ih h.2 (Nat.lt_of_succ_lt_succ bound)

/-- A row is held if its bytes can be read. -/
theorem holds_of_read8
    (h : ∀ i (bound : i < values.length),
      bus.read8 (position + UInt32.ofNat i) = .ok values[i]) : bus.Holds position values := by
  induction values generalizing position with
  | nil => trivial
  | cons value rest ih =>
    have first := h 0 (Nat.succ_pos rest.length)
    rw [add_ofNat_zero] at first
    refine ⟨first, ih fun i bound => ?_⟩
    rw [← add_ofNat_succ]
    exact h (i + 1) (Nat.succ_lt_succ bound)

/-- The same is read from the buses at every position from one up to another. -/
def SameBytes (bus other : Bus) (first next : UInt32) : Prop :=
  ∀ i < (next - first).toNat,
    other.read8 (first + UInt32.ofNat i) = bus.read8 (first + UInt32.ofNat i)

/-- A row is held wherever the bytes of the row are the same. -/
theorem Holds.congr (h : bus.Holds position values) (short : values.length < UInt32.size)
    (same : bus.SameBytes other position (position + UInt32.ofNat values.length)) :
    other.Holds position values := by
  have length : (position + UInt32.ofNat values.length - position).toNat = values.length := by
    rw [UInt32.add_comm, UInt32.add_sub_cancel, UInt32.toNat_ofNat']
    exact Nat.mod_eq_of_lt short
  apply holds_of_read8
  intro i bound
  rw [same i (by rwa [length]), h.read8 bound]

/-- On a flat bus a row is held where it lies in the view. -/
theorem holds_flat_iff (view : View) (position : UInt32) (values : List UInt8) :
    (Bus.flat view).Holds position values ↔ view.Holds position.toNat values := by
  induction values generalizing position with
  | nil => exact Iff.rfl
  | cons value rest ih =>
    have first : (Bus.flat view).read8 position = .ok value ↔
        view.Holds position.toNat [value] := view.read8_eq_ok_iff position value
    unfold Holds View.Holds
    rw [first, ih]
    constructor
    · rintro ⟨⟨inside, byte, -⟩, later⟩
      rw [view.toNat_add_one inside] at later
      exact ⟨inside, byte, later⟩
    · rintro ⟨inside, byte, later⟩
      rw [view.toNat_add_one inside]
      exact ⟨⟨inside, byte, trivial⟩, later⟩

/-- A range is reachable if bytes are read all over it. -/
theorem Holds.check (h : bus.Holds position values) (nonempty : values ≠ []) :
    bus.check position values.length = .ok () := by
  have positive : 0 < values.length := List.length_pos_iff.mpr nonempty
  have count : max values.length 1 = values.length := Nat.max_eq_left positive
  cases bus with
  | flat view =>
    have room := ((holds_flat_iff view position values).mp h).end_le nonempty
    refine (view.check_eq_ok_iff position values.length).mpr ?_
    rw [count]
    exact room
  | banked wram =>
    change Banked.checkEach wram position (max values.length 1) = .ok ()
    rw [count]
    exact Banked.checkEach_of_read8 fun i bound => ⟨values[i], h.read8 bound⟩

/-! ## Writes -/

/-- Writes a row of bytes one after another. -/
def writeEach : UInt32 → List UInt8 → EStateM Fault Bus Unit
  | _, [] => pure ()
  | position, value :: rest => do
    write8 position value
    writeEach (position + 1) rest

/-- Writing to the positions of a row in turn is writing the row byte by byte. -/
theorem forM_positions (position : UInt32) (values : List UInt8) :
    (((Bytewise.positions position values.length).zip values).forM
      fun (position, value) => write8 position value) = writeEach position values := by
  induction values generalizing position with
  | nil => rfl
  | cons value rest ih =>
    rw [List.length_cons, positions_succ, List.zip_cons_cons, writeEach, ← ih (position + 1)]
    rfl

/-- The bytes of a row that were written one after another are held, and a byte that is read at an
offset that the row does not reach is as it was. By induction on the row: what is written behind its
first byte leaves that byte alone. -/
theorem holds_of_writeEach {wram : View} (short : values.length ≤ 65536)
    (h : writeEach position values (.banked wram) = .ok () after) :
    after.Holds position values ∧
      ∀ other, (∀ i < values.length,
          Address.offset other ≠ Address.offset (position + UInt32.ofNat i)) →
        after.read8 other = (Bus.banked wram).read8 other := by
  induction values generalizing position wram with
  | nil =>
    cases h
    exact ⟨trivial, fun _ _ => rfl⟩
  | cons value rest ih =>
    rw [List.length_cons] at short
    obtain ⟨_, next, hfirst, hrest⟩ := Action.exists_of_bind_eq_ok h
    obtain ⟨wram', hwrite, rfl⟩ : ∃ wram', Banked.write8 position value wram = .ok () wram' ∧
        next = .banked wram' := by
      simp only [write8] at hfirst
      cases outcome : Banked.write8 position value wram with
      | ok _ wram' =>
        rw [outcome] at hfirst
        cases hfirst
        exact ⟨wram', rfl, rfl⟩
      | error fault wram' =>
        rw [outcome] at hfirst
        cases hfirst
    obtain ⟨written, kept⟩ := Banked.read8_of_write8 hwrite
    obtain ⟨holds, frame⟩ := ih (by omega) hrest
    constructor
    · refine ⟨?_, holds⟩
      rw [frame position]
      · exact written
      · intro i bound
        rw [← add_ofNat_succ]
        exact (offset_add_ne position (Nat.succ_pos i) (by omega)).symm
    · intro other apart
      rw [frame other]
      · apply kept
        have first := apart 0 (Nat.succ_pos rest.length)
        rwa [add_ofNat_zero] at first
      · intro i bound
        rw [← add_ofNat_succ]
        exact apart (i + 1) (Nat.succ_lt_succ bound)

/-- A row of bytes that was written is held, if it is no longer than a bank. -/
theorem holds_of_writeBlock (short : values.length ≤ 65536)
    (h : writeBlock position values bus = .ok () after) : after.Holds position values := by
  by_cases nonempty : values = []
  · rw [nonempty]
    trivial
  · cases bus with
    | flat view =>
      obtain ⟨room, rfl⟩ := (writeBlock_flat_eq_ok_iff view position nonempty after).mp h
      exact (holds_flat_iff _ _ _).mpr (View.holds_setAll room)
    | banked wram =>
      simp only [writeBlock, Bytewise.write, forM_positions] at h
      obtain ⟨_, next, hcheck, hwrite⟩ := Action.exists_of_bind_eq_ok h
      have same : next = .banked wram := by
        simp only [Action.look] at hcheck
        split at hcheck <;> cases hcheck
        rfl
      rw [same] at hwrite
      exact (holds_of_writeEach short hwrite).1

end Bus

end W65C816
