import W65C816.Proofs.Memory.Places

/-!
# Writes, all or nothing

An action is atomic on a state if it leaves that state behind when it fails. A single byte is
written or not, and a row is checked before its first byte is written. On a flat bus the row is then
written at once. On a banked bus it is written byte by byte, and what makes it atomic is that a row
whose positions all name bytes is written to its end: `Bus.exists_writeEach`. So every write to a
bus is atomic, also where a row goes beyond the end of the view or into a bank that is out of reach.

A row that is written is held, and the bytes that none of its positions names are as they were,
`Bus.Rewrites`. With the two together a row is written as a whole or not at all:
`Bus.allOrNothing_writeBlock`.
-/

set_option autoImplicit false

namespace W65C816

namespace Action

variable {ε σ α β : Type}

/-- If the action fails on a state, it leaves the state as it was. -/
def Atomic (action : EStateM ε σ α) (state : σ) : Prop :=
  ∀ ⦃failure : ε⦄ ⦃next : σ⦄, action state = .error failure next → next = state

/-- What succeeds is atomic. -/
theorem atomic_of_ok {action : EStateM ε σ α} {state next : σ} {value : α}
    (h : action state = .ok value next) : Atomic action state := by
  intro failure after failed
  rw [h] at failed
  cases failed

/-- A question is atomic, since it changes nothing. -/
theorem atomic_look (question : σ → Except ε α) (state : σ) : Atomic (look question) state := by
  intro failure next h
  unfold look at h
  split at h <;> cases h
  rfl

/-- Under a condition the action does what it is for. Otherwise it fails and leaves the state as it
was. -/
structure AllOrNothing (action : EStateM ε σ α) (state : σ) (condition : Prop)
    (done : α → σ → Prop) : Prop where
  fails : Atomic action state
  succeeds : ∀ ⦃value : α⦄ ⦃next : σ⦄, action state = .ok value next → done value next
  possible : (∃ value next, action state = .ok value next) ↔ condition

/-- An action on a part fails with the part, and leaves the whole around it. -/
theorem place_eq_error_iff {τ : Type} {build : σ → τ} {outcome : EStateM.Result ε σ α}
    {failure : ε} {next : τ} :
    place build outcome = .error failure next ↔
      ∃ part, outcome = .error failure part ∧ next = build part := by
  cases outcome with
  | ok value part => simp [place]
  | error found part =>
    simp only [place, EStateM.Result.error.injEq]
    constructor
    · rintro ⟨rfl, rfl⟩
      exact ⟨part, ⟨rfl, rfl⟩, rfl⟩
    · rintro ⟨_, ⟨rfl, rfl⟩, rfl⟩
      exact ⟨rfl, rfl⟩

/-- A sequence fails with its first action or, when that is done, with the rest. -/
theorem bind_eq_error_iff {first : EStateM ε σ α} {rest : α → EStateM ε σ β} {state last : σ}
    {failure : ε} :
    (first >>= rest) state = .error failure last ↔
      first state = .error failure last ∨
        ∃ value next, first state = .ok value next ∧ rest value next = .error failure last := by
  rw [bind_apply]
  cases first state with
  | ok value next =>
    simp only [reduceCtorEq, false_or, EStateM.Result.ok.injEq]
    constructor
    · exact fun later => ⟨value, next, ⟨rfl, rfl⟩, later⟩
    · rintro ⟨_, _, ⟨rfl, rfl⟩, later⟩
      exact later
  | error found next => simp

/-- A question may come before an action that is atomic whatever the answer is. -/
theorem atomic_look_bind {question : σ → Except ε α} {rest : α → EStateM ε σ β} {state : σ}
    (h : ∀ value, question state = .ok value → Atomic (rest value) state) :
    Atomic (look question >>= rest) state := by
  intro failure next failed
  rcases bind_eq_error_iff.mp failed with first | ⟨value, middle, asked, later⟩
  · exact atomic_look question state first
  · obtain ⟨answered, rfl⟩ := look_eq_ok_iff.mp asked
    exact h value answered later

/-- An action that always succeeds may come behind an atomic one. -/
theorem Atomic.bind_of_ok {first : EStateM ε σ α} {rest : α → EStateM ε σ β} {state : σ}
    (h : Atomic first state) (done : ∀ value next, ∃ result last,
      rest value next = .ok result last) : Atomic (first >>= rest) state := by
  intro failure next failed
  rcases bind_eq_error_iff.mp failed with early | ⟨value, middle, -, later⟩
  · exact h early
  · obtain ⟨result, last, succeeded⟩ := done value middle
    rw [succeeded] at later
    cases later

/-- To fail is right where it is impossible to succeed. -/
theorem allOrNothing_throw (failure : ε) (state : σ) {condition : Prop} {done : α → σ → Prop}
    (impossible : ¬ condition) :
    AllOrNothing (throw failure : EStateM ε σ α) state condition done where
  fails := fun _ _ failed => by
    cases failed
    rfl
  succeeds := fun _ _ returned => by cases returned
  possible := by
    refine iff_of_false ?_ impossible
    rintro ⟨_, _, returned⟩
    cases returned

/-- What an action yields may be changed when it is done. -/
theorem AllOrNothing.bind_pure {action : EStateM ε σ α} {change : α → β} {state : σ}
    {condition : Prop} {done : α → σ → Prop} {done' : β → σ → Prop}
    (h : AllOrNothing action state condition done)
    (changed : ∀ value next, done value next → done' (change value) next) :
    AllOrNothing (action >>= fun value => pure (change value)) state condition done' where
  fails := h.fails.bind_of_ok fun value next => ⟨change value, next, rfl⟩
  succeeds := fun _ _ returned => by
    obtain ⟨value, last, first, rest⟩ := exists_of_bind_eq_ok returned
    cases rest
    exact changed value _ (h.succeeds first)
  possible := by
    rw [← h.possible]
    constructor
    · rintro ⟨_, _, returned⟩
      obtain ⟨value, next, first, -⟩ := exists_of_bind_eq_ok returned
      exact ⟨value, next, first⟩
    · rintro ⟨value, next, first⟩
      exact ⟨change value, next, bind_of_ok first⟩

end Action

open W65C816.Action (Atomic)

namespace View

/-- Bytes are written all at once to a view. -/
theorem atomic_write (position : UInt32) (values : List UInt8) (view : View) :
    Atomic (write position values) view := by
  intro fault next h
  unfold write at h
  split at h <;> cases h
  rfl

/-- A row is written all at once to a view. -/
theorem atomic_writeBlock (position : UInt32) (values : List UInt8) (view : View) :
    Atomic (writeBlock position values) view := by
  unfold writeBlock
  split
  · exact Action.atomic_of_ok rfl
  · exact atomic_write position values view

end View

/-- A byte is written or not. -/
theorem Banked.atomic_write8 (address : UInt32) (value : UInt8) (wram : View) :
    Atomic (write8 address value) wram := by
  intro fault next h
  unfold write8 at h
  split at h
  · exact View.atomic_write _ _ wram h
  · cases h
    rfl

namespace Bus

/-- A byte is written to the bus or not. -/
theorem atomic_write8 (position : UInt32) (value : UInt8) (bus : Bus) :
    Atomic (write8 position value) bus := by
  intro fault next h
  cases bus with
  | flat view =>
    obtain ⟨part, failed, rfl⟩ := Action.place_eq_error_iff.mp h
    exact congrArg flat (View.atomic_write position [value] view failed)
  | banked wram =>
    obtain ⟨part, failed, rfl⟩ := Action.place_eq_error_iff.mp h
    exact congrArg banked (Banked.atomic_write8 position value wram failed)

/-- A row all of whose positions name bytes is written to its end. By induction on the row: writing
a byte moves no position. -/
theorem exists_writeEach {bus : Bus} {position : UInt32} {values : List UInt8}
    (h : ∀ k < values.length, (bus.index? (position + UInt32.ofNat k)).isSome) :
    ∃ next, writeEach position values bus = .ok () next := by
  induction values generalizing bus position with
  | nil => exact ⟨bus, rfl⟩
  | cons value rest ih =>
    have first := h 0 (Nat.succ_pos rest.length)
    rw [Bytewise.add_ofNat_zero] at first
    obtain ⟨i, named⟩ := Option.isSome_iff_exists.mp first
    obtain ⟨next, written⟩ := @ih (bus.put i value) (position + 1) fun k bound => by
      rw [index?_put, ← Bytewise.add_ofNat_succ]
      exact h (k + 1) (Nat.succ_lt_succ bound)
    exact ⟨next, writeEach_cons_eq_ok_iff.mpr ⟨i, named, written⟩⟩

/-- Bytes are written all or none, since they are all checked first. -/
theorem atomic_bytewise_write (position : UInt32) (values : List UInt8) (bus : Bus) :
    Atomic (Bytewise.write position values) bus := by
  refine Action.atomic_look_bind fun _ reachable => ?_
  have named (k : Nat) (bound : k < values.length) :=
    (bus.check_eq_ok_iff position (Nat.zero_lt_of_lt bound)).mp reachable k bound
  obtain ⟨next, written⟩ := exists_writeEach named
  rw [forM_positions]
  exact Action.atomic_of_ok written

/-- A row that cannot be written as a whole is not begun. -/
theorem atomic_writeBlock (position : UInt32) (values : List UInt8) (bus : Bus) :
    Atomic (writeBlock position values) bus := by
  intro fault next h
  cases bus with
  | flat view =>
    obtain ⟨part, failed, rfl⟩ := Action.place_eq_error_iff.mp h
    exact congrArg flat (View.atomic_writeBlock position values view failed)
  | banked wram => exact atomic_bytewise_write position values (banked wram) h

/-- A value at either width is written whole or not at all. -/
theorem atomic_writeAt (width : Width) (position : UInt32) (value : UInt16) (bus : Bus) :
    Atomic (writeAt width position value) bus := by
  cases width with
  | byte => exact atomic_write8 position (Word.low value) bus
  | word =>
    intro fault next h
    simp only [writeAt, write16_eq_writeBlock] at h
    exact atomic_writeBlock position _ bus h

/-- A row all of whose positions name bytes is written at once to the same end as byte by byte. -/
theorem writeBlock_of_named {bus : Bus} {position : UInt32} {row : List UInt8} (nonempty : row ≠ [])
    (h : ∀ k < row.length, (bus.index? (position + UInt32.ofNat k)).isSome) :
    writeBlock position row bus = writeEach position row bus := by
  obtain ⟨next, written⟩ := exists_writeEach h
  rw [written]
  exact (writeBlock_eq_ok_iff nonempty).mpr written

/-- Otherwise nothing is written, and the fault is the one that the check of the range finds. -/
theorem writeBlock_of_unreachable {bus : Bus} {position : UInt32} {row : List UInt8} {fault : Fault}
    (nonempty : row ≠ []) (h : bus.check position row.length = .error fault) :
    writeBlock position row bus = .error fault bus := by
  cases bus with
  | flat view =>
    have filled : row.isEmpty = false := List.isEmpty_eq_false_iff.mpr nonempty
    have room : view.check position row.length = .error fault := h
    simp only [writeBlock, View.writeBlock, filled, Bool.false_eq_true, if_false, View.write,
      View.locate, room, Action.place]
  | banked wram =>
    simp only [writeBlock, Bytewise.write, Action.bind_apply, Action.look, h]

/-! ## What a row changes -/

/-- The bus has become another one of its kind onto the same part of a memory, and the memory has
changed at most at some indices. -/
structure ChangesOnly (bus : Bus) (indices : Nat → Prop) (next : Bus) : Prop where
  kind : next = bus.onto next.view
  start : next.view.start = bus.view.start
  length : next.view.length = bus.view.length
  size : next.memory.size = bus.memory.size
  byte : ∀ i, ¬ indices i → next.memory.byte i = bus.memory.byte i

variable {bus middle next : Bus} {position : UInt32} {row : List UInt8}

/-- Nothing changes where nothing is done. -/
theorem changesOnly_refl (bus : Bus) (indices : Nat → Prop) : bus.ChangesOnly indices bus where
  kind := by cases bus <;> rfl
  start := rfl
  length := rfl
  size := rfl
  byte := fun _ _ => rfl

/-- Two changes at the same indices are one there. -/
theorem ChangesOnly.trans {indices : Nat → Prop} (h : bus.ChangesOnly indices middle)
    (h' : middle.ChangesOnly indices next) : bus.ChangesOnly indices next where
  kind := by
    have kind := h'.kind
    rw [h.kind] at kind
    cases bus <;> exact kind
  start := h'.start.trans h.start
  length := h'.length.trans h.length
  size := h'.size.trans h.size
  byte := fun i outside => (h'.byte i outside).trans (h.byte i outside)

/-- A byte changes where it is put. -/
theorem changesOnly_put (bus : Bus) {indices : Nat → Prop} {i : Nat} (inside : indices i)
    (value : UInt8) : bus.ChangesOnly indices (bus.put i value) where
  kind := by cases bus <;> rfl
  start := by cases bus <;> rfl
  length := by cases bus <;> rfl
  size := by rw [memory_put, Memory.size_set]
  byte := fun j outside => by
    rw [memory_put, Memory.byte_set, if_neg]
    rintro ⟨rfl, -⟩
    exact outside inside

/-- One of the positions of a row of so many bytes names the byte. -/
def NamedBy (bus : Bus) (position : UInt32) (count i : Nat) : Prop :=
  ∃ k < count, bus.index? (position + UInt32.ofNat k) = some i

/-- By induction on the row: its first position names a byte, and the others are those of the
rest. -/
theorem changesOnly_of_writeEach (h : writeEach position row bus = .ok () next) :
    bus.ChangesOnly (bus.NamedBy position row.length) next := by
  induction row generalizing bus position with
  | nil =>
    cases h
    exact changesOnly_refl _ _
  | cons value rest ih =>
    obtain ⟨i, named, later⟩ := writeEach_cons_eq_ok_iff.mp h
    have first : bus.NamedBy position (rest.length + 1) i :=
      ⟨0, Nat.succ_pos _, by rwa [Bytewise.add_ofNat_zero]⟩
    have others := ih later
    have behind (j : Nat) (inside : (bus.put i value).NamedBy (position + 1) rest.length j) :
        bus.NamedBy position (rest.length + 1) j := by
      obtain ⟨k, bound, named⟩ := inside
      rw [index?_put, ← Bytewise.add_ofNat_succ] at named
      exact ⟨k + 1, Nat.succ_lt_succ bound, named⟩
    exact (changesOnly_put bus first value).trans
      { others with byte := fun j outside => others.byte j fun inside => outside (behind j inside) }

/-- From one bus to the other a row of bytes was written: each of its positions names a byte, the
row is held, and the bytes that no position of the row names are as they were. -/
structure Rewrites (bus : Bus) (position : UInt32) (row : List UInt8) (next : Bus) : Prop where
  named : ∀ k < row.length, (bus.index? (position + UInt32.ofNat k)).isSome
  holds : next.Holds position row
  others : bus.ChangesOnly (bus.NamedBy position row.length) next

/-- No bus reaches the last position of all. -/
theorem index?_last (bus : Bus) : bus.index? 0xFFFFFFFF = none := by
  cases bus with
  | flat view =>
    have bound := view.length_le
    refine if_neg fun inside => ?_
    rw [Memory.greatestSize] at bound
    have number : (0xFFFFFFFF : UInt32).toNat = 0xFFFFFFFF := rfl
    omega
  | banked wram =>
    have out : Banked.position? 0xFFFFFFFF = none := by decide
    rw [index?, out]
    rfl

/-- So the positions of a row do not wrap. -/
theorem Rewrites.end_lt (h : bus.Rewrites position row next) :
    position.toNat + row.length < UInt32.size := by
  refine Nat.lt_of_not_le fun beyond => ?_
  have bound := position.toNat_lt
  have inside : UInt32.size - 1 - position.toNat < row.length := by
    simp only [UInt32.size] at beyond ⊢
    omega
  have last : position + UInt32.ofNat (UInt32.size - 1 - position.toNat) = 0xFFFFFFFF := by
    apply UInt32.toNat.inj
    rw [UInt32.toNat_add, UInt32.toNat_ofNat']
    simp only [UInt32.size, UInt32.reduceToNat]
    omega
  have named := h.named _ inside
  rw [last, index?_last] at named
  cases named

/-- A row of bytes that is no longer than a bank is written as a whole, if each of its positions
names a byte, or not at all. -/
theorem allOrNothing_writeBlock (position : UInt32) {row : List UInt8} (nonempty : row ≠ [])
    (short : row.length ≤ 65536) (bus : Bus) :
    Action.AllOrNothing (writeBlock position row) bus
      (∀ k < row.length, (bus.index? (position + UInt32.ofNat k)).isSome)
      fun _ next => bus.Rewrites position row next where
  fails := atomic_writeBlock position row bus
  succeeds := fun _ next written => by
    have each := (writeBlock_eq_ok_iff nonempty).mp written
    exact ⟨fun k bound => isSome_of_writeEach each bound, holds_of_writeBlock short written,
      changesOnly_of_writeEach each⟩
  possible := by
    constructor
    · rintro ⟨_, next, written⟩ k bound
      exact isSome_of_writeEach ((writeBlock_eq_ok_iff nonempty).mp written) bound
    · intro named
      obtain ⟨next, written⟩ := exists_writeEach named
      exact ⟨(), next, (writeBlock_eq_ok_iff nonempty).mpr written⟩

end Bus

end W65C816
