import W65C816.Proofs.Memory.Changes

/-!
# The bytes that positions name

A position of a bus names a byte of the memory behind it, or none: `Bus.index?`. Reading and writing
are put in these terms, on a flat bus as well as on a banked one. On a banked bus many positions
name one byte, but neighbours never do, so what was written at a width is read again,
`Bus.readAt_of_writeAt`. A write changes no byte that none of its positions names,
`Bus.byte_of_writeAt`, and writing the old value again undoes it, `Bus.eq_of_writeAt_writeAt`.
-/

set_option autoImplicit false

namespace W65C816

/-! ## Memories -/

namespace Memory

/-- A memory is known by its size and its bytes. -/
theorem eq_of_byte {memory other : Memory} (size : other.size = memory.size)
    (byte : ∀ i, other.byte i = memory.byte i) : other = memory := by
  obtain ⟨bytes, _, _⟩ := memory
  obtain ⟨bytes', _, _⟩ := other
  have length : bytes'.size = bytes.size := size
  have same : bytes' = bytes := by
    refine ByteArray.ext (Array.ext length fun i inside' inside => ?_)
    have here := byte i
    simp only [Memory.byte] at here
    rw [dif_pos (show i < bytes'.size from inside'), dif_pos (show i < bytes.size from inside)]
      at here
    exact here
  subst same
  rfl

/-- Of two bytes that are set in one place the last counts. -/
theorem set_set (memory : Memory) (i : Nat) (value value' : UInt8) :
    (memory.set i value).set i value' = memory.set i value' := by
  refine eq_of_byte (by simp only [size_set]) fun k => ?_
  simp only [byte_set, size_set]
  split <;> rfl

/-- Bytes are set in different places in any order. -/
theorem set_comm (memory : Memory) {i j : Nat} (apart : j ≠ i) (value value' : UInt8) :
    (memory.set i value).set j value' = (memory.set j value').set i value := by
  refine eq_of_byte (by simp only [size_set]) fun k => ?_
  simp only [byte_set, size_set]
  split
  · next second =>
    rw [if_neg fun first => apart (second.1.symm.trans first.1)]
  · rfl

/-- Setting a byte to what it is changes nothing. -/
theorem set_self (memory : Memory) (i : Nat) : memory.set i (memory.byte i) = memory := by
  refine eq_of_byte (size_set _ _ _) fun k => ?_
  rw [byte_set]
  split
  · next here => rw [here.1]
  · rfl

end Memory

/-! ## Positions -/

/-- The index into the memory of the byte at a position, if the view has one there. -/
def View.index? (view : View) (position : UInt32) : Option Nat :=
  if position.toNat < view.length then some (view.start + position.toNat) else none

/-- A view has a place for each position below its length. -/
theorem View.index?_eq_some_iff (view : View) (position : UInt32) (i : Nat) :
    view.index? position = some i ↔
      position.toNat < view.length ∧ view.start + position.toNat = i := by
  unfold index?
  split <;> simp [*]

namespace Bus

/-- The index into the memory of the byte that a position names, if it names one. -/
def index? : Bus → UInt32 → Option Nat
  | .flat view, position => view.index? position
  | .banked wram, address => (Banked.position? address).bind wram.index?

/-- The bus with one byte of its memory replaced. -/
def put (bus : Bus) (i : Nat) (value : UInt8) : Bus :=
  bus.onto (bus.view.setAll i [value])

variable {bus next last : Bus} {position : UInt32} {i j : Nat} {width : Width}

/-- Putting a byte leaves the places where they are. -/
@[simp] theorem index?_put (bus : Bus) (i : Nat) (value : UInt8) (position : UInt32) :
    (bus.put i value).index? position = bus.index? position := by
  cases bus <;> rfl

/-- A byte is put in memory. -/
@[simp] theorem memory_put (bus : Bus) (i : Nat) (value : UInt8) :
    (bus.put i value).memory = bus.memory.set i value := by
  cases bus <;> rfl

/-- Of two bytes that are put in one place the last counts. -/
theorem put_put (bus : Bus) (i : Nat) (value value' : UInt8) :
    (bus.put i value).put i value' = bus.put i value' := by
  have same := bus.memory.set_set i value value'
  obtain ⟨⟨memory, start, length, _, _⟩⟩ | ⟨⟨memory, start, length, _, _⟩⟩ := bus <;>
    simp only [put, onto, view, View.setAll, Memory.setAll] at same ⊢ <;> congr 2

/-- Bytes are put in different places in any order. -/
theorem put_comm (bus : Bus) (apart : j ≠ i) (value value' : UInt8) :
    (bus.put i value).put j value' = (bus.put j value').put i value := by
  have same := bus.memory.set_comm apart value value'
  obtain ⟨⟨memory, start, length, _, _⟩⟩ | ⟨⟨memory, start, length, _, _⟩⟩ := bus <;>
    simp only [put, onto, view, View.setAll, Memory.setAll] at same ⊢ <;> congr 2

/-- Putting a byte where it is changes nothing. -/
theorem put_self (bus : Bus) (i : Nat) : bus.put i (bus.memory.byte i) = bus := by
  have same := bus.memory.set_self i
  obtain ⟨⟨memory, start, length, _, _⟩⟩ | ⟨⟨memory, start, length, _, _⟩⟩ := bus <;>
    simp only [put, onto, view, View.setAll, Memory.setAll] at same ⊢ <;> congr 2

/-- Every place is in memory. -/
theorem lt_size_of_index? (h : bus.index? position = some i) : i < bus.memory.size := by
  have inside {view : View} {position : UInt32} (h : view.index? position = some i) :
      i < view.memory.size := by
    obtain ⟨room, rfl⟩ := (view.index?_eq_some_iff _ _).mp h
    have := view.end_le
    omega
  cases bus with
  | flat view => exact inside h
  | banked wram =>
    obtain ⟨_, -, found⟩ := Option.bind_eq_some_iff.mp h
    exact inside found

/-- Neighbours name different bytes. -/
theorem index?_add_one_ne (first : bus.index? position = some i)
    (second : bus.index? (position + 1) = some j) : j ≠ i := by
  cases bus with
  | flat view =>
    obtain ⟨inside, rfl⟩ := (view.index?_eq_some_iff _ _).mp first
    obtain ⟨-, rfl⟩ := (view.index?_eq_some_iff _ _).mp second
    have next := view.toNat_add_one inside
    omega
  | banked wram =>
    obtain ⟨here, stands, found⟩ := Option.bind_eq_some_iff.mp first
    obtain ⟨there, stands', found'⟩ := Option.bind_eq_some_iff.mp second
    obtain ⟨-, rfl⟩ := (wram.index?_eq_some_iff _ _).mp found
    obtain ⟨-, rfl⟩ := (wram.index?_eq_some_iff _ _).mp found'
    have apart := Bytewise.offset_add_ne position Nat.one_pos (by decide)
    intro same
    have equal : there = here := UInt32.toNat.inj (Nat.add_left_cancel same)
    apply apart
    rw [← Banked.offset_of_position? stands, ← equal]
    exact (Banked.offset_of_position? stands').symm

/-! ## Bytes -/

/-- A byte can be read if there is a place for it. -/
theorem read8_eq_ok_iff (bus : Bus) (position : UInt32) (value : UInt8) :
    bus.read8 position = .ok value ↔
      ∃ i, bus.index? position = some i ∧ bus.memory.byte i = value := by
  have onView (view : View) (position : UInt32) : view.read8 position = .ok value ↔
      ∃ i, view.index? position = some i ∧ view.memory.byte i = value := by
    simp only [View.read8_eq_ok_iff, View.Holds, View.index?_eq_some_iff, and_true]
    constructor
    · rintro ⟨inside, byte⟩
      exact ⟨_, ⟨inside, rfl⟩, byte⟩
    · rintro ⟨_, ⟨inside, rfl⟩, byte⟩
      exact ⟨inside, byte⟩
  cases bus with
  | flat view => exact onView view position
  | banked wram =>
    simp only [read8, Banked.read8, index?, Banked.resolve, memory, view]
    cases Banked.position? position with
    | none => simp
    | some here =>
      rw [Option.bind_some, ← onView wram here]
      simp only [View.read8, View.locate]
      cases found : wram.check here 1 <;> simp [found]

/-- A byte can be written if there is a place for it. -/
theorem write8_eq_ok_iff (bus next : Bus) (position : UInt32) (value : UInt8) :
    write8 position value bus = .ok () next ↔
      ∃ i, bus.index? position = some i ∧ next = bus.put i value := by
  cases bus with
  | flat view =>
    simp only [write8, Action.place_eq_ok_iff, View.write8_eq_ok_iff, index?,
      View.index?_eq_some_iff]
    constructor
    · rintro ⟨_, ⟨inside, rfl⟩, rfl⟩
      exact ⟨_, ⟨inside, rfl⟩, rfl⟩
    · rintro ⟨_, ⟨inside, rfl⟩, rfl⟩
      exact ⟨_, ⟨inside, rfl⟩, rfl⟩
  | banked wram =>
    simp only [write8, Action.place_eq_ok_iff, Banked.write8, index?]
    constructor
    · rintro ⟨_, written, rfl⟩
      split at written
      · next here found =>
        obtain ⟨stands, inside⟩ := (Banked.resolve_eq_ok_iff _ _ _).mp found
        obtain ⟨-, rfl⟩ := (View.write8_eq_ok_iff _ _ _ _).mp written
        refine ⟨_, ?_, rfl⟩
        rw [stands]
        exact (wram.index?_eq_some_iff _ _).mpr ⟨inside, rfl⟩
      · cases written
    · rintro ⟨i, named, rfl⟩
      obtain ⟨here, stands, found⟩ := Option.bind_eq_some_iff.mp named
      obtain ⟨inside, rfl⟩ := (wram.index?_eq_some_iff _ _).mp found
      rw [(Banked.resolve_eq_ok_iff _ _ _).mpr ⟨stands, inside⟩]
      exact ⟨_, (View.write8_eq_ok_iff _ _ _ _).mpr ⟨inside, rfl⟩, rfl⟩

/-! ## Rows -/

end Bus

/-- An address can be resolved exactly if it names a byte. -/
theorem Banked.resolve_isSome_iff (wram : View) (address : UInt32) :
    (∃ place, resolve wram address = .ok place) ↔
      ((Bus.banked wram).index? address).isSome := by
  simp only [resolve_eq_ok_iff, Option.isSome_iff_exists, Bus.index?, Option.bind_eq_some_iff,
    View.index?_eq_some_iff]
  constructor
  · rintro ⟨place, stands, inside⟩
    exact ⟨_, place, stands, inside, rfl⟩
  · rintro ⟨_, place, stands, inside, -⟩
    exact ⟨place, stands, inside⟩

/-- A row on a banked view passes its check if there is a place for each of its bytes. -/
theorem Banked.checkEach_eq_ok_iff (wram : View) (address : UInt32) (count : Nat) :
    checkEach wram address count = .ok () ↔
      ∀ k < count, ((Bus.banked wram).index? (address + UInt32.ofNat k)).isSome := by
  induction count generalizing address with
  | zero => simp [checkEach]
  | succ count ih =>
    have first := resolve_isSome_iff wram address
    have rest := ih (address + 1)
    have checked : checkEach wram address (count + 1) = .ok () ↔
        (∃ place, resolve wram address = .ok place) ∧
          checkEach wram (address + 1) count = .ok () := by
      rw [checkEach]
      cases resolve wram address <;> simp
    rw [checked, first, rest, Nat.forall_lt_succ_left]
    simp only [Bytewise.add_ofNat_succ, Bytewise.add_ofNat_zero]

namespace Bus

variable {bus next last : Bus} {position : UInt32} {i j : Nat} {width : Width}

/-- A range is reachable exactly if each of its positions names a byte. -/
theorem check_eq_ok_iff (bus : Bus) (position : UInt32) {count : Nat} (positive : 0 < count) :
    bus.check position count = .ok () ↔
      ∀ k < count, (bus.index? (position + UInt32.ofNat k)).isSome := by
  have most : max count 1 = count := Nat.max_eq_left positive
  cases bus with
  | flat view =>
    have inside (position : UInt32) :
        (view.index? position).isSome ↔ position.toNat < view.length := by
      unfold View.index?
      split <;> simp [*]
    simp only [check, index?, inside, view.check_eq_ok_iff, most]
    constructor
    · intro room k bound
      rw [view.toNat_add_ofNat (by omega)]
      omega
    · intro all
      -- If the range did not fit, the first position behind the view would be one of it.
      refine Nat.le_of_not_lt fun beyond => ?_
      have first := all 0 positive
      rw [Bytewise.add_ofNat_zero] at first
      have behind := all (view.length - position.toNat) (by omega)
      rw [view.toNat_add_ofNat (by omega)] at behind
      omega
  | banked wram =>
    have each := Banked.checkEach_eq_ok_iff wram position count
    simpa only [check, Banked.check, most] using each

/-- Each position of a row that was written byte by byte names a byte. -/
theorem isSome_of_writeEach {values : List UInt8}
    (h : writeEach position values bus = .ok () next) {k : Nat} (bound : k < values.length) :
    (bus.index? (position + UInt32.ofNat k)).isSome := by
  induction values generalizing bus position k with
  | nil => cases bound
  | cons value rest ih =>
    obtain ⟨_, middle, first, later⟩ := Action.exists_of_bind_eq_ok h
    obtain ⟨i, named, rfl⟩ := (write8_eq_ok_iff _ _ _ _).mp first
    cases k with
    | zero =>
      rw [Bytewise.add_ofNat_zero, named]
      rfl
    | succ k =>
      have there := ih later (Nat.lt_of_succ_lt_succ bound)
      rw [index?_put, ← Bytewise.add_ofNat_succ] at there
      exact there

/-- A row is written byte by byte if its first byte and then the others are. -/
theorem writeEach_cons_eq_ok_iff {value : UInt8} {rest : List UInt8} :
    writeEach position (value :: rest) bus = .ok () next ↔
      ∃ i, bus.index? position = some i ∧
        writeEach (position + 1) rest (bus.put i value) = .ok () next := by
  constructor
  · intro h
    obtain ⟨_, middle, first, later⟩ := Action.exists_of_bind_eq_ok h
    obtain ⟨i, named, rfl⟩ := (write8_eq_ok_iff _ _ _ _).mp first
    exact ⟨i, named, later⟩
  · rintro ⟨i, named, later⟩
    have first := (write8_eq_ok_iff _ _ _ value).mpr ⟨i, named, rfl⟩
    exact (Action.bind_of_ok first).trans later

/-- On a flat bus a row is written at once to the same end as byte by byte. -/
theorem writeEach_flat_eq_ok_iff (view : View) {values : List UInt8} (nonempty : values ≠ []) :
    writeEach position values (.flat view) = .ok () next ↔
      position.toNat + values.length ≤ view.length ∧
        next = .flat (view.setAll (view.start + position.toNat) values) := by
  induction values generalizing view position with
  | nil => exact absurd rfl nonempty
  | cons value rest ih =>
    rw [writeEach_cons_eq_ok_iff]
    simp only [index?, View.index?_eq_some_iff, List.length_cons]
    rcases rest with _ | ⟨value', rest⟩
    · constructor
      · rintro ⟨_, ⟨inside, rfl⟩, done⟩
        cases done
        exact ⟨inside, rfl⟩
      · rintro ⟨inside, rfl⟩
        exact ⟨_, ⟨inside, rfl⟩, rfl⟩
    · have later := @ih (position + 1) (view.setAll (view.start + position.toNat) [value])
        (List.cons_ne_nil _ _)
      constructor
      · rintro ⟨_, ⟨inside, rfl⟩, done⟩
        obtain ⟨room, rfl⟩ := later.mp done
        rw [view.toNat_add_one inside] at room ⊢
        simp only [List.length_cons, View.length_setAll] at room ⊢
        exact ⟨by omega, rfl⟩
      · rintro ⟨room, rfl⟩
        have inside : position.toNat < view.length := by omega
        refine ⟨_, ⟨inside, rfl⟩, later.mpr ?_⟩
        rw [view.toNat_add_one inside]
        simp only [List.length_cons, View.length_setAll] at room ⊢
        exact ⟨by omega, rfl⟩

/-- A row is written exactly if it can be written byte by byte, and to the same end. -/
theorem writeBlock_eq_ok_iff {values : List UInt8} (nonempty : values ≠ []) :
    writeBlock position values bus = .ok () next ↔
      writeEach position values bus = .ok () next := by
  cases bus with
  | flat view =>
    rw [writeBlock_flat_eq_ok_iff view position nonempty, writeEach_flat_eq_ok_iff view nonempty]
  | banked wram =>
    have positive : 0 < values.length := List.length_pos_iff.mpr nonempty
    simp only [writeBlock, Bytewise.write, forM_positions]
    constructor
    · intro h
      obtain ⟨_, same, checked, written⟩ := Action.exists_of_bind_eq_ok h
      obtain ⟨-, rfl⟩ := Action.look_eq_ok_iff.mp checked
      exact written
    · intro written
      have reachable := ((Bus.banked wram).check_eq_ok_iff position positive).mpr fun k bound =>
        isSome_of_writeEach written bound
      have checked : Action.look (fun bus => bus.check position values.length) (banked wram) =
          .ok () (banked wram) := Action.look_eq_ok_iff.mpr ⟨reachable, rfl⟩
      rw [Action.bind_of_ok checked]
      exact written

/-- A number is written as the row of its bytes. -/
theorem write16_eq_writeBlock (position : UInt32) (value : UInt16) (bus : Bus) :
    write16 position value bus =
      writeBlock position [Word.low value, Word.high value] bus := by
  cases bus <;> rfl

/-- An address is written as the row of its three bytes. -/
theorem write24_eq_writeBlock (position value : UInt32) (bus : Bus) :
    write24 position value bus =
      writeBlock position [Address.low value, Address.middle value, Address.bank value] bus := by
  cases bus <;> rfl

/-- A word is written if there are places for both of its bytes. -/
theorem write16_eq_ok_iff (bus next : Bus) (position : UInt32) (value : UInt16) :
    write16 position value bus = .ok () next ↔
      ∃ i j, bus.index? position = some i ∧ bus.index? (position + 1) = some j ∧
        next = (bus.put i (Word.low value)).put j (Word.high value) := by
  rw [write16_eq_writeBlock, writeBlock_eq_ok_iff (List.cons_ne_nil _ _)]
  simp only [writeEach_cons_eq_ok_iff, index?_put]
  constructor
  · rintro ⟨i, first, j, second, done⟩
    cases done
    exact ⟨i, j, first, second, rfl⟩
  · rintro ⟨i, j, first, second, rfl⟩
    exact ⟨i, first, j, second, rfl⟩

/-- A word is read whose two bytes the positions name. -/
theorem read16_eq_ok_iff (bus : Bus) (position : UInt32) (value : UInt16) :
    bus.read16 position = .ok value ↔
      ∃ i j, bus.index? position = some i ∧ bus.index? (position + 1) = some j ∧
        Word.join (bus.memory.byte j) (bus.memory.byte i) = value := by
  have held : bus.read16 position = .ok value ↔
      bus.Holds position [Word.low value, Word.high value] := by
    cases bus with
    | flat view => rw [holds_flat_iff, ← View.read16_eq_ok_iff, read16]
    | banked wram =>
      simp only [read16, Bytewise.read16]
      have reachable (h : (banked wram).Holds position [Word.low value, Word.high value]) :
          (banked wram).check position 2 = .ok () := h.check (List.cons_ne_nil _ _)
      cases checked : (banked wram).check position 2 with
      | error fault =>
        refine ⟨nofun, fun h => ?_⟩
        rw [reachable h] at checked
        cases checked
      | ok _ =>
        simp only [Holds, and_true]
        cases (banked wram).read8 position with
        | error fault => exact ⟨nofun, nofun⟩
        | ok low =>
          cases (banked wram).read8 (position + 1) with
          | error fault => exact ⟨nofun, nofun⟩
          | ok high =>
            constructor
            · rintro h
              cases h
              rw [Word.low_join, Word.high_join]
              exact ⟨rfl, rfl⟩
            · rintro ⟨first, second⟩
              cases first
              cases second
              exact congrArg Except.ok (Word.join_high_low value)
  rw [held]
  simp only [Holds, read8_eq_ok_iff, and_true]
  constructor
  · rintro ⟨⟨i, first, low⟩, j, second, high⟩
    exact ⟨i, j, first, second, by rw [low, high, Word.join_high_low]⟩
  · rintro ⟨i, j, first, second, rfl⟩
    exact ⟨⟨i, first, (Word.low_join _ _).symm⟩, j, second, (Word.high_join _ _).symm⟩

/-! ## Values of a width -/

/-- At the width of a byte a byte is read. -/
theorem readAt_byte_eq_ok_iff (bus : Bus) (position : UInt32) (value : UInt16) :
    bus.readAt .byte position = .ok value ↔
      ∃ i, bus.index? position = some i ∧ (bus.memory.byte i).toUInt16 = value := by
  simp only [readAt]
  constructor
  · intro h
    cases found : bus.read8 position with
    | error fault =>
      rw [found] at h
      cases h
    | ok byte =>
      rw [found] at h
      cases h
      obtain ⟨i, named, rfl⟩ := (read8_eq_ok_iff _ _ _).mp found
      exact ⟨i, named, rfl⟩
  · rintro ⟨i, named, rfl⟩
    rw [(read8_eq_ok_iff _ _ _).mpr ⟨i, named, rfl⟩]
    rfl

/-- Whatever is read at a width counts as a whole. -/
theorem narrow_of_readAt {value : UInt16} (h : bus.readAt width position = .ok value) :
    width.narrow value = value := by
  cases width with
  | byte =>
    obtain ⟨i, -, rfl⟩ := (readAt_byte_eq_ok_iff _ _ _).mp h
    simp [Width.narrow, Word.dropHigh, Word.low]
  | word => rfl

/-- What was written at a width is read again, as much of it as counts. -/
theorem readAt_of_writeAt {value : UInt16} (h : writeAt width position value bus = .ok () next) :
    next.readAt width position = .ok (width.narrow value) := by
  cases width with
  | byte =>
    obtain ⟨i, named, rfl⟩ := (write8_eq_ok_iff _ _ _ _).mp h
    refine (readAt_byte_eq_ok_iff _ _ _).mpr ⟨i, by rwa [index?_put], ?_⟩
    rw [memory_put, Memory.byte_set, if_pos ⟨rfl, lt_size_of_index? named⟩]
    rfl
  | word =>
    obtain ⟨i, j, first, second, rfl⟩ := (write16_eq_ok_iff _ _ _ _).mp h
    have apart : i ≠ j := (index?_add_one_ne first second).symm
    refine (read16_eq_ok_iff _ _ _).mpr ⟨i, j, by simpa using first, by simpa using second, ?_⟩
    simp only [memory_put, Memory.byte_set, Memory.size_set]
    rw [if_pos ⟨trivial, lt_size_of_index? second⟩, if_neg fun same => apart same.1,
      if_pos ⟨trivial, lt_size_of_index? first⟩, Word.join_high_low, Width.narrow]

/-- Where a value is read one of the same width is written. -/
theorem exists_writeAt_of_readAt {old : UInt16} (h : bus.readAt width position = .ok old)
    (value : UInt16) : ∃ next, writeAt width position value bus = .ok () next := by
  cases width with
  | byte =>
    obtain ⟨i, named, -⟩ := (readAt_byte_eq_ok_iff _ _ _).mp h
    exact ⟨_, (write8_eq_ok_iff _ _ _ _).mpr ⟨i, named, rfl⟩⟩
  | word =>
    obtain ⟨i, j, first, second, -⟩ := (read16_eq_ok_iff _ _ _).mp h
    exact ⟨_, (write16_eq_ok_iff _ _ _ _).mpr ⟨i, j, first, second, rfl⟩⟩

/-- A byte that none of the positions names stays as it was. -/
theorem byte_of_writeAt {value : UInt16} (h : writeAt width position value bus = .ok () next)
    (apart : ∀ k < width.bytes, bus.index? (position + UInt32.ofNat k) ≠ some i) :
    next.memory.byte i = bus.memory.byte i := by
  have first := apart 0 (by cases width <;> decide)
  rw [Bytewise.add_ofNat_zero] at first
  cases width with
  | byte =>
    obtain ⟨a, named, rfl⟩ := (write8_eq_ok_iff _ _ _ _).mp h
    rw [memory_put, Memory.byte_set, if_neg]
    rintro ⟨rfl, -⟩
    exact first named
  | word =>
    obtain ⟨a, b, named, named', rfl⟩ := (write16_eq_ok_iff _ _ _ _).mp h
    have second : bus.index? (position + 1) ≠ some i := apart 1 (by decide)
    rw [memory_put, memory_put, Memory.byte_set, if_neg, Memory.byte_set, if_neg]
    · rintro ⟨rfl, -⟩
      exact first named
    · rintro ⟨rfl, -⟩
      exact second named'

/-- Writing again what was there before the last write takes that back. -/
theorem eq_of_writeAt_writeAt {old value : UInt16} (read : bus.readAt width position = .ok old)
    (written : writeAt width position value bus = .ok () next)
    (again : writeAt width position old next = .ok () last) : last = bus := by
  cases width with
  | byte =>
    obtain ⟨i, named, rfl⟩ := (write8_eq_ok_iff _ _ _ _).mp written
    obtain ⟨i', named', rfl⟩ := (write8_eq_ok_iff _ _ _ _).mp again
    obtain ⟨i'', named'', rfl⟩ := (readAt_byte_eq_ok_iff _ _ _).mp read
    simp only [index?_put, named, Option.some.injEq] at named' named''
    subst named' named''
    have low : Word.low (bus.memory.byte i).toUInt16 = bus.memory.byte i := by simp [Word.low]
    rw [low, put_put, put_self]
  | word =>
    obtain ⟨i, j, first, second, rfl⟩ := (write16_eq_ok_iff _ _ _ _).mp written
    obtain ⟨i', j', first', second', rfl⟩ := (write16_eq_ok_iff _ _ _ _).mp again
    obtain ⟨i'', j'', first'', second'', rfl⟩ := (read16_eq_ok_iff _ _ _).mp read
    simp only [index?_put, first, second, Option.some.injEq] at first' second' first'' second''
    subst first' second' first'' second''
    have apart : j ≠ i := index?_add_one_ne first second
    rw [Word.low_join, Word.high_join, (bus.put i _).put_comm apart.symm, put_put, put_put,
      put_self, put_self]

end Bus

end W65C816
