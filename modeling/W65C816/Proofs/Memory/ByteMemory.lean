import Mathlib.Data.List.Basic
import Mathlib.Data.List.GetD
import Mathlib.Tactic.Choose
import W65C816.Proofs.Memory.Bytewise
import W65C816.Proofs.Memory.Faults
import W65C816.Proofs.Memory.Windows

/-!
# Byte memory

A bus is read and written in four formats: bytes, words, numbers of three bytes, and rows of any
length. `Bus.Format` is what the formats have in common, and `Bus.Format.Lawful` says that a format
is one of byte memory: an access of several bytes succeeds where each of its bytes is read on its
own, a read yields the value of these bytes, a write puts each byte where its position says and
nothing elsewhere, and what was written is then read. A format is lawful if it does what is done
byte by byte, `Bus.Format.Faithful.lawful`, and each of the four does: `Bus.behaves_as_byte_memory`.

What is written is read again because no position of an access names the byte of another one,
`Bus.apart_of_readable`. On a flat bus positions do not wrap. On a banked bus two positions that
name one byte have the same offset, so they are one or more banks apart. From an address outside of
the working memory a row does not go on for a bank, since the high half of its bank is out of reach.
From an address in the working memory it does, and comes back to a byte after both banks.
-/

set_option autoImplicit false

namespace W65C816

/-! ## Banked addresses -/

/-- The same offset in two banks is two addresses. -/
theorem Address.ofBank_ne {bank bank' : UInt8} (apart : bank ≠ bank') (offset : UInt16) :
    ofBank bank offset ≠ ofBank bank' offset := by
  intro same
  apply apart
  rw [← bank_ofBank bank offset, same, bank_ofBank]

/-- One bank further the offset is the same. -/
theorem Bytewise.offset_add_bank (address : UInt32) :
    Address.offset (address + UInt32.ofNat 65536) = Address.offset address := by
  apply UInt16.toNat.inj
  simp [Address.offset]

namespace Banked

variable {address position : UInt32}

/-- An address in one of the two banks of work memory is its position there. -/
theorem position?_of_bank
    (bank : Address.bank address = firstBank ∨ Address.bank address = secondBank) :
    position? address =
      some (Address.ofBank (Address.bank address - firstBank) (Address.offset address)) := by
  simp only [position?, if_pos bank]

/-- The address lies in a bank other than the two of the working memory. -/
structure Outside (address : UInt32) : Prop where
  first : Address.bank address ≠ firstBank
  second : Address.bank address ≠ secondBank

/-- Outside of those banks the upper half of a bank shows no work memory. -/
theorem position?_of_high (outside : Outside address) (high : highHalf ≤ Address.offset address) :
    position? address = none := by
  have other := not_or.mpr ⟨outside.first, outside.second⟩
  simp only [position?, if_neg other, if_pos high]

/-- The high half of another bank is refused. -/
theorem resolve_of_high (wram : View) (outside : Outside address)
    (high : highHalf ≤ Address.offset address) :
    resolve wram address = .error (.accessViolation (Address.wrap address)) := by
  rw [resolve, position?_of_high outside high]

/-- Outside of those banks only the lower half of a bank shows work memory. -/
theorem low_of_position? (outside : Outside address) (stands : (position? address).isSome) :
    Address.offset address < highHalf := by
  refine UInt16.not_le.mp fun high => ?_
  rw [position?_of_high outside high] at stands
  cases stands

/-- The low half of another bank is that of the first bank. -/
theorem position?_of_low (outside : Outside address) (low : Address.offset address < highHalf) :
    position? address = position? (Address.ofBank firstBank (Address.offset address)) := by
  have other := not_or.mpr ⟨outside.first, outside.second⟩
  have reached : ¬ highHalf ≤ Address.offset address := UInt16.not_le.mpr low
  have mirror : (Address.offset address).toUInt32 = Address.ofBank 0 (Address.offset address) := by
    apply UInt32.toNat.inj
    rw [Address.toNat_ofBank, UInt16.toNat_toUInt32]
    simp
  rw [position?_of_bank (.inl (Address.bank_ofBank _ _))]
  simp only [position?, if_neg other, if_neg reached, mirror, Address.bank_ofBank,
    Address.offset_ofBank]
  rfl

/-- One bank further is the next bank. -/
theorem bank_add_bank (address : UInt32) :
    Address.bank (address + UInt32.ofNat 65536) = Address.bank address + 1 := by
  apply UInt8.toNat.inj
  simp [Address.bank]
  omega

/-- From the low half of a bank on, addresses come to its high half. -/
theorem add_to_high (low : Address.offset address < highHalf) :
    Address.bank (address + UInt32.ofNat (0x8000 - (Address.offset address).toNat)) =
        Address.bank address ∧
      Address.offset (address + UInt32.ofNat (0x8000 - (Address.offset address).toNat)) =
        highHalf := by
  have below : (Address.offset address).toNat < 0x8000 := UInt16.lt_iff_toNat_lt.mp low
  have offset : (Address.offset address).toNat = address.toNat % 65536 := by
    simp [Address.offset]
  have bound := address.toNat_lt
  constructor
  · apply UInt8.toNat.inj
    simp [Address.bank]
    omega
  · apply UInt16.toNat.inj
    simp [Address.offset, highHalf]
    omega

/-- So addresses that all stand for positions do not go on for a bank from outside of the working
memory. -/
theorem not_outside_of_all (all : ∀ k ≤ 65536, (position? (address + UInt32.ofNat k)).isSome) :
    ¬ Outside address := by
  intro outside
  have here := all 0 (Nat.zero_le _)
  rw [Bytewise.add_ofNat_zero] at here
  obtain ⟨bank, offset⟩ := add_to_high (low_of_position? outside here)
  have there := all (0x8000 - (Address.offset address).toNat) (by omega)
  have outside' := Outside.mk (bank ▸ outside.first) (bank ▸ outside.second)
  rw [position?_of_high outside' (offset ▸ UInt16.le_refl _)] at there
  cases there

/-- Addresses that all stand for positions, and that lie a bank apart, stand for different ones. -/
theorem position?_add_bank_ne (all : ∀ k ≤ 65536, (position? (address + UInt32.ofNat k)).isSome) :
    position? (address + UInt32.ofNat 65536) ≠ position? address := by
  have later := bank_add_bank address
  have same := Bytewise.offset_add_bank address
  by_cases first : Address.bank address = firstBank
  · rw [position?_of_bank (.inl first), position?_of_bank (.inr (by rw [later, first]; rfl)),
      later, first, same]
    exact fun equal => Address.ofBank_ne (by decide) _ (Option.some.inj equal)
  by_cases second : Address.bank address = secondBank
  · -- A bank further the addresses are outside again, and stand for positions in the first bank.
    have behind : Outside (address + UInt32.ofNat 65536) := by
      constructor <;> rw [later, second] <;> decide
    have low := low_of_position? behind (all 65536 (Nat.le_refl _))
    rw [position?_of_low behind low, position?_of_bank (.inl (Address.bank_ofBank _ _)),
      position?_of_bank (.inr second), Address.bank_ofBank, Address.offset_ofBank, second, same]
    exact fun equal => Address.ofBank_ne (by decide) _ (Option.some.inj equal)
  · exact absurd ⟨first, second⟩ (not_outside_of_all all)

/-- Within the length of both banks no address of a row stands for the position of another one. -/
theorem position?_add_ne {distance : Nat} (positive : 0 < distance) (short : distance < reach)
    (all : ∀ k ≤ distance, (position? (address + UInt32.ofNat k)).isSome) :
    position? (address + UInt32.ofNat distance) ≠ position? address := by
  intro equal
  obtain ⟨position, stands⟩ := Option.isSome_iff_exists.mp (all distance (Nat.le_refl _))
  have there := offset_of_position? stands
  have here := offset_of_position? (equal ▸ stands)
  have offsets := congrArg UInt16.toNat (there.symm.trans here)
  simp only [Address.offset, UInt32.toNat_toUInt16, UInt32.toNat_add, UInt32.toNat_ofNat']
    at offsets
  have bank : distance = 65536 := by
    simp only [reach] at short
    omega
  rw [bank] at equal all
  exact position?_add_bank_ne all equal

end Banked

/-! ## Positions of a row -/

namespace Bus

variable {bus next : Bus} {position : UInt32} {count : Nat} {values : List UInt8}

/-- An access is of at least one byte, and on a banked bus not longer than both banks. -/
def Admits : Bus → Nat → Prop
  | .flat _, count => 0 < count
  | .banked _, count => 0 < count ∧ count ≤ Banked.reach

/-- No bus admits an access to nothing. -/
theorem Admits.positive (h : bus.Admits count) : 0 < count := by
  cases bus with
  | flat view => exact h
  | banked wram => exact h.1

/-- Each of so many positions is read on its own. -/
def Readable (bus : Bus) (position : UInt32) (count : Nat) : Prop :=
  ∀ k < count, ∃ byte, bus.read8 (position + UInt32.ofNat k) = .ok byte

/-- A row can be read if there is a place for each of its bytes. -/
theorem readable_iff :
    bus.Readable position count ↔
      ∀ k < count, (bus.index? (position + UInt32.ofNat k)).isSome := by
  refine forall_congr' fun k => forall_congr' fun _ => ?_
  simp only [read8_eq_ok_iff, Option.isSome_iff_exists]
  constructor
  · rintro ⟨_, i, named, -⟩
    exact ⟨i, named⟩
  · rintro ⟨i, named⟩
    exact ⟨_, i, named, rfl⟩

/-- Addresses that name one byte stand for one position. -/
theorem position?_eq_of_index? {wram : View} {address address' : UInt32} {i : Nat}
    (first : (banked wram).index? address = some i)
    (second : (banked wram).index? address' = some i) :
    ∃ place, Banked.position? address = some place ∧ Banked.position? address' = some place := by
  obtain ⟨place, stands, found⟩ := Option.bind_eq_some_iff.mp first
  obtain ⟨place', stands', found'⟩ := Option.bind_eq_some_iff.mp second
  obtain ⟨-, here⟩ := (wram.index?_eq_some_iff _ _).mp found
  obtain ⟨-, there⟩ := (wram.index?_eq_some_iff _ _).mp found'
  have same : place' = place := UInt32.toNat.inj (by omega)
  exact ⟨place, stands, same ▸ stands'⟩

/-- Of so many positions none names the byte that another one names. -/
def Apart (bus : Bus) (position : UInt32) (count : Nat) : Prop :=
  ∀ ⦃j k⦄, j < k → k < count →
    bus.index? (position + UInt32.ofNat k) ≠ bus.index? (position + UInt32.ofNat j)

/-- Positions of a row that can be read name different bytes. -/
theorem apart_of_readable (admitted : bus.Admits count) (readable : bus.Readable position count) :
    bus.Apart position count := by
  intro j k before bound same
  have named := readable_iff.mp readable
  obtain ⟨i, here⟩ := Option.isSome_iff_exists.mp (named j (Nat.lt_trans before bound))
  have there := same.trans here
  cases bus with
  | flat view =>
    have room := (view.check_eq_ok_iff position count).mp
      (((flat view).check_eq_ok_iff position admitted).mpr named)
    obtain ⟨-, first⟩ := (view.index?_eq_some_iff _ _).mp here
    obtain ⟨-, second⟩ := (view.index?_eq_some_iff _ _).mp there
    rw [view.toNat_add_ofNat (by omega)] at first second
    omega
  | banked wram =>
    obtain ⟨place, stands, stands'⟩ := position?_eq_of_index? here there
    have between : position + UInt32.ofNat k =
        position + UInt32.ofNat j + UInt32.ofNat (k - j) := by
      rw [UInt32.add_assoc, ← UInt32.ofNat_add, Nat.add_sub_cancel' (Nat.le_of_lt before)]
    have short : k - j < Banked.reach :=
      Nat.lt_of_lt_of_le (Nat.lt_of_le_of_lt (Nat.sub_le k j) bound) admitted.2
    rw [between] at stands'
    refine Banked.position?_add_ne (by omega) short (fun d within => ?_)
      (stands'.trans stands.symm)
    have inside := named (j + d) (by omega)
    rw [UInt32.ofNat_add, ← UInt32.add_assoc] at inside
    obtain ⟨i, found⟩ := Option.isSome_iff_exists.mp inside
    obtain ⟨place, stands, -⟩ := Option.bind_eq_some_iff.mp found
    exact Option.isSome_iff_exists.mpr ⟨place, stands⟩

/-! ## Reading byte by byte -/

/-- What comes behind the check of a range succeeds only if the check does. -/
theorem check_of_bind {α : Type} {check : Except Fault Unit} {rest : Unit → Except Fault α}
    {value : α} (h : (check >>= rest) = .ok value) : check = .ok () := by
  cases check with
  | error fault => cases h
  | ok _ => rfl

/-- A word is read byte by byte. -/
theorem read16_eq_bytewise (bus : Bus) (position : UInt32) :
    bus.read16 position = Bytewise.read16 bus position := by
  cases bus with
  | flat view => exact (view.bytewise_read16 position).symm
  | banked wram => rfl

/-- An address is read byte by byte. -/
theorem read24_eq_bytewise (bus : Bus) (position : UInt32) :
    bus.read24 position = Bytewise.read24 bus position := by
  cases bus with
  | flat view => exact (view.bytewise_read24 position).symm
  | banked wram => rfl

/-- A row that is not empty is read byte by byte. -/
theorem readBlock_eq_bytewise (bus : Bus) (position : UInt32) (positive : 0 < count) :
    bus.readBlock position count = Bytewise.readBlock bus position count := by
  cases bus with
  | flat view => exact (view.bytewise_readBlock position positive).symm
  | banked wram => rfl

/-! ## Rows that are written -/

/-- Writing moves no position. -/
theorem ChangesOnly.index?_eq {indices : Nat → Prop} (h : bus.ChangesOnly indices next)
    (position : UInt32) : next.index? position = bus.index? position := by
  have kind := h.kind
  have start := h.start
  have length := h.length
  have same : next.view.index? = bus.view.index? := by
    funext position
    simp only [View.index?, start, length]
  rw [kind]
  cases bus with
  | flat view => exact congrFun same position
  | banked wram =>
    simp only [onto, index?]
    exact congrArg _ same

/-- A row that was written byte by byte has each byte where its position says, if no position names
the byte of another one. By induction on the row: what is written behind the first byte leaves it
alone. -/
theorem byte_of_writeEach
    (apart : bus.Apart position values.length)
    (written : writeEach position values bus = .ok () next) {k i : Nat} (bound : k < values.length)
    (named : bus.index? (position + UInt32.ofNat k) = some i) :
    next.memory.byte i = values[k] := by
  induction values generalizing bus position k with
  | nil => cases bound
  | cons value rest ih =>
    obtain ⟨first, here, later⟩ := writeEach_cons_eq_ok_iff.mp written
    cases k with
    | zero =>
      rw [Bytewise.add_ofNat_zero, here] at named
      obtain rfl := Option.some.inj named
      have others := (changesOnly_of_writeEach later).byte first
      rw [others, memory_put, Memory.byte_set, if_pos ⟨rfl, lt_size_of_index? here⟩]
      · rfl
      · rintro ⟨d, inside, again⟩
        rw [index?_put, ← Bytewise.add_ofNat_succ] at again
        have distinct := apart (Nat.succ_pos d) (Nat.succ_lt_succ inside)
        rw [Bytewise.add_ofNat_zero, again, here] at distinct
        exact distinct rfl
    | succ k =>
      refine ih (fun j k before within => ?_) later (Nat.lt_of_succ_lt_succ bound) ?_
      · rw [index?_put, index?_put, ← Bytewise.add_ofNat_succ, ← Bytewise.add_ofNat_succ]
        exact apart (Nat.succ_lt_succ before) (Nat.succ_lt_succ within)
      · rw [index?_put, ← Bytewise.add_ofNat_succ]
        exact named

/-! ## Formats -/

/-- A format in which a bus is read and written. -/
structure Format (α : Type) where
  /-- The number of bytes of a value. -/
  count : Nat
  read : Bus → UInt32 → Except Fault α
  write : UInt32 → α → EStateM Fault Bus Unit
  /-- The bytes of a value, lowest first. -/
  bytes : α → List UInt8
  /-- As much of a value as its bytes hold. -/
  reduce : α → α

namespace Format

def byte : Format UInt8 where
  count := 1
  read := read8
  write := write8
  bytes value := [value]
  reduce := id

def word : Format UInt16 where
  count := 2
  read := read16
  write := write16
  bytes value := [Word.low value, Word.high value]
  reduce := id

/-- Numbers of three bytes. -/
def long : Format UInt32 where
  count := 3
  read := read24
  write := write24
  bytes value := [Address.low value, Address.middle value, Address.bank value]
  reduce := Address.wrap

/-- Rows of a given length. -/
def row (count : Nat) : Format (List UInt8) where
  count
  read bus position := bus.readBlock position count
  write := writeBlock
  bytes := id
  reduce := id

variable {α : Type} {format : Format α} {value : α}

/-- The value has as many bytes as the format. So have all numbers, and the rows of that length. -/
def Fits (format : Format α) (value : α) : Prop :=
  (format.bytes value).length = format.count

/-- A value was written: the bytes that its positions name are its bytes, the others are as they
were, and the value is read. -/
structure Written (format : Format α) (bus : Bus) (position : UInt32) (value : α) (next : Bus) :
    Prop where
  bytes : ∀ k (bound : k < (format.bytes value).length), ∃ i,
    bus.index? (position + UInt32.ofNat k) = some i ∧
      next.memory.byte i = (format.bytes value)[k]
  others : bus.ChangesOnly (bus.NamedBy position format.count) next
  again : format.read next position = .ok (format.reduce value)

/-- Values are read and written at a position as in byte memory. -/
structure Lawful (format : Format α) (bus : Bus) (position : UInt32) : Prop where
  reads : (∃ value, format.read bus position = .ok value) ↔ bus.Readable position format.count
  holds : ∀ value, format.read bus position = .ok value →
    format.Fits value ∧ bus.Holds position (format.bytes value)
  writes : ∀ value, format.Fits value →
    Action.AllOrNothing (format.write position value) bus (bus.Readable position format.count)
      fun _ next => format.Written bus position value next
  apart : bus.Readable position format.count → bus.Apart position format.count

/-- The format does what is done byte by byte. -/
structure Faithful (format : Format α) : Prop where
  /-- Behind a read lies the check of the range. -/
  check : ∀ {bus position value}, format.read bus position = .ok value →
    bus.check position format.count = .ok ()
  read : ∀ {bus position value}, format.Fits value → bus.Holds position (format.bytes value) →
    format.read bus position = .ok (format.reduce value)
  write : ∀ {bus next position value}, format.Fits value →
    (format.write position value bus = .ok () next ↔
      writeEach position (format.bytes value) bus = .ok () next)
  atomic : ∀ position value bus, Action.Atomic (format.write position value) bus
  bytes_reduce : ∀ value, format.bytes (format.reduce value) = format.bytes value
  /-- Every row of the right length is that of a value. -/
  exists_value : ∀ {row}, row.length = format.count → ∃ value, format.bytes value = row

/-- The format is written as the row of its bytes. -/
def AsRow (format : Format α) : Prop :=
  ∀ position value bus, format.write position value bus =
    writeBlock position (format.bytes value) bus

/-- What is written as a row is written byte by byte when it succeeds. -/
theorem AsRow.write_eq_ok_iff (h : format.AsRow) (nonempty : format.bytes value ≠ []) :
    format.write position value bus = .ok () next ↔
      writeEach position (format.bytes value) bus = .ok () next := by
  rw [h, writeBlock_eq_ok_iff nonempty]

/-- What is written as a row is written whole or not at all. -/
theorem AsRow.atomic (h : format.AsRow) (position : UInt32) (value : α) (bus : Bus) :
    Action.Atomic (format.write position value) bus := by
  intro fault next failed
  rw [h] at failed
  exact atomic_writeBlock position _ bus failed

/-- Bytes that are read are those of a value. -/
theorem Faithful.exists_holds (h : format.Faithful)
    (readable : bus.Readable position format.count) :
    ∃ value, format.Fits value ∧ bus.Holds position (format.bytes value) := by
  choose! byte reads using readable
  obtain ⟨value, bytes⟩ := @h.exists_value ((List.range format.count).map byte) (by simp)
  have fits : format.Fits value := by simp [Fits, bytes]
  refine ⟨value, fits, holds_of_read8 fun k bound => ?_⟩
  have inside : k < format.count := fits ▸ bound
  simp only [bytes, List.getElem_map, List.getElem_range]
  exact reads k inside

/-- Where each byte is read a value is read. -/
theorem Faithful.read_iff (h : format.Faithful) (positive : 0 < format.count) :
    (∃ value, format.read bus position = .ok value) ↔ bus.Readable position format.count := by
  constructor
  · rintro ⟨value, read⟩
    exact readable_iff.mpr ((bus.check_eq_ok_iff position positive).mp (h.check read))
  · intro readable
    obtain ⟨value, fits, holds⟩ := h.exists_holds readable
    exact ⟨_, h.read fits holds⟩

/-- What was read fits its format, and the bus holds its bytes. -/
theorem Faithful.holds (h : format.Faithful) (positive : 0 < format.count)
    (read : format.read bus position = .ok value) :
    format.Fits value ∧ bus.Holds position (format.bytes value) := by
  obtain ⟨value', fits, holds⟩ := h.exists_holds ((h.read_iff positive).mp ⟨value, read⟩)
  have same := read.symm.trans (h.read fits holds)
  rw [Fits, Except.ok.inj same, h.bytes_reduce]
  exact ⟨fits, holds⟩

/-- What is written in a faithful format can be read back, and nothing else has changed. -/
theorem Faithful.written (h : format.Faithful) (admitted : bus.Admits format.count)
    (fits : format.Fits value) (done : format.write position value bus = .ok () next) :
    format.Written bus position value next := by
  have each := (h.write fits).mp done
  have named (k : Nat) (bound : k < (format.bytes value).length) :=
    Option.isSome_iff_exists.mp (isSome_of_writeEach each bound)
  have readable : bus.Readable position format.count :=
    readable_iff.mpr fun k bound => isSome_of_writeEach each (fits ▸ bound)
  have bytes (k : Nat) (bound : k < (format.bytes value).length) : ∃ i,
      bus.index? (position + UInt32.ofNat k) = some i ∧
        next.memory.byte i = (format.bytes value)[k] := by
    obtain ⟨i, here⟩ := named k bound
    have apart := apart_of_readable admitted readable
    rw [← fits] at apart
    exact ⟨i, here, byte_of_writeEach apart each bound here⟩
  have others := changesOnly_of_writeEach each
  refine ⟨bytes, fits ▸ others, h.read fits (holds_of_read8 fun k bound => ?_)⟩
  obtain ⟨i, here, byte⟩ := bytes k bound
  exact (next.read8_eq_ok_iff _ _).mpr ⟨i, by rwa [others.index?_eq], byte⟩

/-- A format that does what is done byte by byte is one of byte memory. -/
theorem Faithful.lawful (h : format.Faithful) (admitted : bus.Admits format.count) :
    format.Lawful bus position where
  reads := h.read_iff admitted.positive
  holds := fun _ => h.holds admitted.positive
  writes value fits :=
    { fails := h.atomic position value bus
      succeeds := fun _ _ done => h.written admitted fits done
      possible := by
        constructor
        · rintro ⟨_, next, done⟩
          have each := (h.write fits).mp done
          exact readable_iff.mpr fun k bound => isSome_of_writeEach each (fits ▸ bound)
        · intro readable
          have named := readable_iff.mp readable
          obtain ⟨next, each⟩ := exists_writeEach fun k bound => named k (fits ▸ bound)
          exact ⟨(), next, (h.write fits).mpr each⟩ }
  apart := apart_of_readable admitted

/-! ## The four formats -/

/-- Bytes are faithful. -/
theorem faithful_byte : byte.Faithful where
  check {bus position value} read := by
    obtain ⟨i, named, -⟩ := (bus.read8_eq_ok_iff position value).mp read
    refine (bus.check_eq_ok_iff position Nat.one_pos).mpr fun k bound => ?_
    obtain rfl := Nat.lt_one_iff.mp bound
    rw [Bytewise.add_ofNat_zero, named]
    rfl
  read _ holds := holds.1
  write {bus next position value} _ := by
    rw [byte, write8_eq_ok_iff, writeEach_cons_eq_ok_iff]
    refine exists_congr fun i => and_congr_right fun _ => ?_
    constructor
    · rintro rfl
      rfl
    · intro done
      cases done
      rfl
  atomic := atomic_write8
  bytes_reduce _ := rfl
  exists_value {values} one := by
    obtain ⟨value, rfl⟩ := List.length_eq_one_iff.mp one
    exact ⟨value, rfl⟩

/-- A word is written as the row of its two bytes. -/
theorem asRow_word : word.AsRow := write16_eq_writeBlock

/-- An address is written as the row of its three bytes. -/
theorem asRow_long : long.AsRow := write24_eq_writeBlock

/-- A row is written as itself. -/
theorem asRow_row (count : Nat) : (row count).AsRow := fun _ _ _ => rfl

/-- Words are faithful. -/
theorem faithful_word : word.Faithful where
  check {bus position value} read := by
    simp only [word, read16_eq_bytewise] at read
    exact check_of_bind read
  read {bus position value} _ holds := by
    have checked : bus.check position 2 = .ok () := holds.check (List.cons_ne_nil _ _)
    obtain ⟨low, high, -⟩ := holds
    simp only [word, bus.read16_eq_bytewise, Bytewise.read16, checked, low, high]
    exact congrArg Except.ok (Word.join_high_low value)
  write _ := asRow_word.write_eq_ok_iff (List.cons_ne_nil _ _)
  atomic := asRow_word.atomic
  bytes_reduce _ := rfl
  exists_value {values} two := by
    obtain ⟨low, high, rfl⟩ := List.length_eq_two.mp two
    exact ⟨Word.join high low, by simp only [word, Word.low_join, Word.high_join]⟩

/-- Addresses are faithful. -/
theorem faithful_long : long.Faithful where
  check {bus position value} read := by
    simp only [long, read24_eq_bytewise] at read
    exact check_of_bind read
  read {bus position value} _ holds := by
    have checked : bus.check position 3 = .ok () := holds.check (List.cons_ne_nil _ _)
    have last := holds.read8 (i := 2) (Nat.lt_succ_self 2)
    obtain ⟨low, middle, -⟩ := holds
    change bus.read8 (position + 2) = .ok (Address.bank value) at last
    simp only [long, bus.read24_eq_bytewise, Bytewise.read24, checked, low, middle, last]
    exact congrArg Except.ok (Address.ofBytes_bytes value)
  write _ := asRow_long.write_eq_ok_iff (List.cons_ne_nil _ _)
  atomic := asRow_long.atomic
  bytes_reduce value := by
    simp only [long, ← Address.ofBytes_bytes, Address.low_ofBytes, Address.middle_ofBytes,
      Address.bank_ofBytes]
  exists_value {values} three := by
    obtain ⟨low, middle, high, rfl⟩ := List.length_eq_three.mp three
    refine ⟨Address.ofBytes high middle low, ?_⟩
    simp only [long, Address.low_ofBytes, Address.middle_ofBytes, Address.bank_ofBytes]

/-- Rows are faithful, if they are not empty. -/
theorem faithful_row (positive : 0 < count) : (row count).Faithful where
  check {bus position value} read := by
    simp only [row, readBlock_eq_bytewise _ _ positive] at read
    exact check_of_bind read
  read {bus position values} fits held := by
    have long : values.length = count := fits
    have holds : bus.Holds position values := held
    have checked := holds.check (List.ne_nil_of_length_pos (long ▸ positive))
    have each : (Bytewise.positions position count).mapM bus.read8 =
        .ok ((List.range count).map fun k => values.getD k 0) := by
      refine Bytewise.mapM_read8 fun k bound => ?_
      rw [holds.read8 (long ▸ bound), List.getD_eq_getElem _ _ (long ▸ bound)]
    have whole : (List.range count).map (fun k => values.getD k 0) = values := by
      refine List.ext_getElem (by simp [long]) fun k bound bound' => ?_
      rw [List.getElem_map, List.getElem_range, List.getD_eq_getElem _ _ bound']
    rw [long] at checked
    simp only [row, readBlock_eq_bytewise _ _ positive, Bytewise.readBlock, checked, each, whole]
    rfl
  write {bus next position values} fits := by
    have long : values.length = count := fits
    exact (asRow_row count).write_eq_ok_iff (List.ne_nil_of_length_pos (long ▸ positive))
  atomic := (asRow_row count).atomic
  bytes_reduce _ := rfl
  exists_value _ := ⟨_, rfl⟩

end Format

/-! ## Byte memory -/

/-- On every bus and from every position on, bytes, words, numbers of three bytes and rows are read
and written as in byte memory, rows on a banked bus as long as they are not longer than both banks.
A position is read where it names a byte of the memory, and that byte is what is read. On a banked
bus, outside of the banks of the working memory, a position in the low half of its bank names the
byte that is named in the first bank, and a position in the high half is refused. -/
theorem behaves_as_byte_memory (bus : Bus) (position : UInt32) :
    (Format.byte.Lawful bus position ∧ Format.word.Lawful bus position ∧
        Format.long.Lawful bus position) ∧
      (∀ count, bus.Admits count → (Format.row count).Lawful bus position) ∧
      (∀ value, bus.read8 position = .ok value ↔
        ∃ i, bus.index? position = some i ∧ bus.memory.byte i = value) ∧
      ∀ wram, bus = .banked wram → Banked.Outside position →
        (Address.offset position < Banked.highHalf →
          bus.index? position =
            bus.index? (Address.ofBank Banked.firstBank (Address.offset position))) ∧
        (Banked.highHalf ≤ Address.offset position →
          bus.read8 position = .error (.accessViolation (Address.wrap position)) ∧
          ∀ value, write8 position value bus =
            .error (.accessViolation (Address.wrap position)) bus) := by
  have admits (count : Nat) (positive : 0 < count) (short : count ≤ 3) : bus.Admits count := by
    cases bus with
    | flat view => exact positive
    | banked wram => exact ⟨positive, Nat.le_trans short (by decide)⟩
  refine ⟨⟨?_, ?_, ?_⟩, fun count admitted => ?_, bus.read8_eq_ok_iff position, ?_⟩
  · exact Format.faithful_byte.lawful (admits 1 (by decide) (by decide))
  · exact Format.faithful_word.lawful (admits 2 (by decide) (by decide))
  · exact Format.faithful_long.lawful (admits 3 (by decide) (by decide))
  · exact (Format.faithful_row admitted.positive).lawful admitted
  · rintro wram rfl outside
    constructor
    · intro low
      exact congrArg (Option.bind · wram.index?) (Banked.position?_of_low outside low)
    · intro high
      have refused := Banked.resolve_of_high wram outside high
      refine ⟨?_, fun value => ?_⟩
      · simp only [read8, Banked.read8, refused]
      · simp only [write8, Banked.write8, refused, Action.place]

/-- Behind the last byte of the two banks a row goes on with their first byte, where bank `80`
begins, and the high half of that bank is refused. -/
theorem behaves_as_byte_memory_behind_the_banks :
    ∃ (memory : Memory) (bus next : Bus), Memory.create 0x20000 = .ok memory ∧
      bus = .banked (View.whole memory) ∧ bus.Admits 2 ∧
      writeBlock 0x7FFFFF [0xCD, 0xAB] bus = .ok () next ∧
      next.memory.byte 0x1FFFF = 0xCD ∧ next.memory.byte 0 = 0xAB ∧
      next.readBlock 0x7FFFFF 2 = .ok [0xCD, 0xAB] ∧
      bus.index? 0x800000 = bus.index? 0x7E0000 ∧
      bus.read8 0x808000 = .error (.accessViolation 0x808000) := by
  obtain ⟨memory, created, size⟩ := @Memory.exists_create 0x20000 (by decide)
  let bus := Bus.banked (View.whole memory)
  have length : (View.whole memory).length = 0x20000 := size
  have named {address place : UInt32} (stands : Banked.position? address = some place)
      (inside : place.toNat < 0x20000) : bus.index? address = some place.toNat := by
    simp only [bus, index?, stands, Option.bind_some, View.index?, length, if_pos inside]
    exact congrArg some (Nat.zero_add _)
  have first : bus.index? 0x7FFFFF = some 0x1FFFF := @named _ 0x1FFFF (by decide) (by decide)
  have second : bus.index? 0x800000 = some 0 := @named _ 0 (by decide) (by decide)
  have readable : bus.Readable 0x7FFFFF 2 := by
    refine readable_iff.mpr fun k bound => ?_
    rcases k with _ | _ | _
    · exact Option.isSome_iff_exists.mpr ⟨_, first⟩
    · exact Option.isSome_iff_exists.mpr ⟨_, second⟩
    · omega
  have admitted : bus.Admits 2 := ⟨by decide, by decide⟩
  obtain ⟨-, rows, -⟩ := bus.behaves_as_byte_memory 0x7FFFFF
  obtain ⟨-, -, -, low⟩ := bus.behaves_as_byte_memory 0x800000
  obtain ⟨-, -, -, high⟩ := bus.behaves_as_byte_memory 0x808000
  have mirrored := (low _ rfl ⟨by decide, by decide⟩).1 (by decide)
  have refused := ((high _ rfl ⟨by decide, by decide⟩).2 (by decide)).1
  have writes := (rows 2 admitted).writes [0xCD, 0xAB] rfl
  obtain ⟨_, next, done⟩ := writes.possible.mpr readable
  have written := writes.succeeds done
  obtain ⟨i, here, last⟩ := written.bytes 0 (by decide)
  obtain ⟨j, there, begins⟩ := written.bytes 1 (by decide)
  obtain rfl : 0x1FFFF = i := Option.some.inj (first.symm.trans here)
  obtain rfl : 0 = j := Option.some.inj (second.symm.trans there)
  exact ⟨memory, bus, next, created, rfl, admitted, done, last, begins, written.again, mirrored,
    refused⟩

end Bus

end W65C816
