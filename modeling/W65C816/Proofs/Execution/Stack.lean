import W65C816.Proofs.Execution.Outcomes
import W65C816.Proofs.Memory.Rows
import W65C816.Proofs.Registers.Wrapping

/-!
# The stack

`Core.peek` is a byte of the stack by its depth. A push puts a byte on top and moves all the others
down by one, as long as there is room for them; a pull takes the top one and moves the others up.
`Core.Lays` says the same of a row of bytes. Rows are put together by `Core.Lays.trans`,
and `Core.peek_raised` is what pulling brings up.
-/

set_option autoImplicit false

namespace W65C816

/-- A byte that was written is read at its position, and all others are as they were. -/
theorem View.read8_of_write8 {view next : View} {position : UInt32} {value : UInt8}
    (h : write8 position value view = .ok () next) :
    next.read8 position = .ok value ∧
      ∀ other, other ≠ position → next.read8 other = view.read8 other := by
  obtain ⟨inside, rfl⟩ := (write8_eq_ok_iff view next position value).mp h
  refine ⟨(read8_eq_ok_iff _ _ _).mpr (holds_setAll inside), fun other apart => ?_⟩
  have distinct : other.toNat ≠ position.toNat := fun same => apart (UInt32.toNat.inj same)
  apply read8_setAll_of_outside
  rw [List.length_singleton]
  omega

/-- A byte that was written is read at its address, and bytes at other offsets are as they were. -/
theorem Bus.read8_of_write8 {bus next : Bus} {address : UInt32} {value : UInt8}
    (h : write8 address value bus = .ok () next) :
    next.read8 address = .ok value ∧
      ∀ other, Address.offset other ≠ Address.offset address →
        next.read8 other = bus.read8 other := by
  cases bus with
  | flat view =>
    obtain ⟨after, written, rfl⟩ := Action.place_eq_ok_iff.mp h
    obtain ⟨here, others⟩ := View.read8_of_write8 written
    exact ⟨here, fun other apart => others other fun same => apart (congrArg Address.offset same)⟩
  | banked wram =>
    obtain ⟨after, written, rfl⟩ := Action.place_eq_ok_iff.mp h
    exact Banked.read8_of_write8 written

namespace Core

/-- The byte that lies on the stack under a number of others. -/
def peek (core : Core) (depth : Nat) : Except Fault UInt8 :=
  core.bus.read8 (core.registers.slot (depth + 1)).toUInt32

/-- A row of bytes is on top of what the stack held, its first byte on top. -/
structure Lays (core next : Core) (row : List UInt8) : Prop where
  sp : next.registers.sp = (core.registers.lowered row.length).sp
  emulation : next.registers.emulation = core.registers.emulation
  top : ∀ i (h : i < row.length), next.peek i = .ok row[i]
  under : ∀ i, i + row.length < core.registers.stackCapacity →
    next.peek (i + row.length) = core.peek i

end Core

namespace Exec

variable {core next : Core} {value : UInt8}

/-- A push writes its byte where the pointer is, and then lowers the pointer. -/
theorem exists_write_of_push8 (h : push8 value core = .ok () next) :
    ∃ bus, Bus.write8 (core.registers.wrapStack core.registers.sp).toUInt32 value core.bus =
        .ok () bus ∧ next = ⟨core.registers.lowered 1, bus⟩ := by
  obtain ⟨_, _, asked, rest⟩ := Action.exists_of_bind_eq_ok h
  cases asked
  obtain ⟨_, _, wrote, lower⟩ := Action.exists_of_bind_eq_ok rest
  obtain ⟨bus, written, rfl⟩ := onBus_eq_ok_iff.mp wrote
  cases lower
  exact ⟨bus, written, rfl⟩

/-- A push that succeeds puts its byte on top. -/
theorem lays_of_push8 (h : push8 value core = .ok () next) :
    next.registers = core.registers.lowered 1 ∧ core.Lays next [value] := by
  obtain ⟨bus, written, rfl⟩ := exists_write_of_push8 h
  obtain ⟨here, others⟩ := Bus.read8_of_write8 written
  have slot (i : Nat) : (core.registers.lowered 1).slot (i + 1) = core.registers.slot i :=
    core.registers.slot_lowered 1 i
  refine ⟨rfl, rfl, rfl, fun i bound => ?_, fun i room => ?_⟩
  · obtain rfl : i = 0 := Nat.lt_one_iff.mp bound
    change bus.read8 ((core.registers.lowered 1).slot (0 + 1)).toUInt32 = .ok value
    rw [slot, Registers.slot_zero]
    exact here
  · change bus.read8 ((core.registers.lowered 1).slot (i + 1 + 1)).toUInt32 = core.peek i
    rw [slot]
    apply others
    rw [Address.offset, Address.offset, UInt16.toUInt16_toUInt32, UInt16.toUInt16_toUInt32,
      ← Registers.slot_zero]
    intro same
    have capacity := core.registers.le_stackCapacity
    exact Nat.succ_ne_zero i (Registers.slot_inj room (by omega) same)

/-- A pull takes the byte on top. -/
theorem pull8_of_peek (h : core.peek 0 = .ok value) :
    pull8 core = .ok value ⟨core.registers.raised 1, core.bus⟩ :=
  (Action.bind_of_ok (alter_apply _ _)).trans (ask_of_ok h)

end Exec

namespace Core

variable {core next last : Core} {row above : List UInt8}

/-- Rows that are laid one after another come to one row, if the stack has room for it. -/
theorem Lays.trans (h : core.Lays next row) (h' : next.Lays last above)
    (room : above.length + row.length ≤ core.registers.stackCapacity) :
    core.Lays last (above ++ row) := by
  have capacity := Registers.stackCapacity_congr h.emulation
  refine ⟨?_, h'.emulation.trans h.emulation, fun i bound => ?_, fun i bound => ?_⟩
  · have lowered := Registers.sp_lowered_congr (s := next.registers) h.sp h.emulation above.length
    rw [h'.sp, lowered, Registers.lowered_lowered, List.length_append, Nat.add_comm]
  · rw [List.length_append] at bound
    by_cases upper : i < above.length
    · rw [List.getElem_append_left upper]
      exact h'.top i upper
    · obtain ⟨depth, rfl⟩ := Nat.exists_eq_add_of_le' (Nat.le_of_not_lt upper)
      have inside : depth < row.length := by omega
      rw [h'.under depth (by omega), h.top depth inside]
      simp
  · rw [List.length_append] at bound ⊢
    rw [show i + (above.length + row.length) = i + row.length + above.length by omega,
      h'.under _ (by omega), h.under i (by omega)]

/-- The stack of a core is that of another one if their stack pointers, modes and buses agree. -/
structure SameStack (core other : Core) : Prop where
  sp : other.registers.sp = core.registers.sp
  emulation : other.registers.emulation = core.registers.emulation
  bus : other.bus = core.bus

/-- Cores with the same stack show the same bytes of it. -/
theorem SameStack.peek {other : Core} (h : core.SameStack other) (depth : Nat) :
    other.peek depth = core.peek depth := by
  rw [Core.peek, Core.peek, h.bus, Registers.slot_congr h.sp h.emulation]

/-- Whether a row is laid on the stack depends on the stack. -/
theorem Lays.congr {core' next' : Core} (h : core.Lays next row) (before : core.SameStack core')
    (after : next.SameStack next') : core'.Lays next' row where
  sp := by
    rw [after.sp, h.sp, Registers.sp_lowered_congr before.sp before.emulation]
  emulation := by rw [after.emulation, h.emulation, before.emulation]
  top := fun i bound => by rw [after.peek, h.top i bound]
  under := fun i bound => by
    rw [Registers.stackCapacity_congr before.emulation] at bound
    rw [after.peek, before.peek, h.under i bound]

/-- Pulling brings up what lies deeper. -/
theorem peek_raised {r : Registers} {count : Nat} (sp : r.sp = (core.registers.raised count).sp)
    (emulation : r.emulation = core.registers.emulation) (depth : Nat) :
    Core.peek ⟨r, core.bus⟩ depth = core.peek (depth + count) := by
  have slot := Registers.slot_congr (r := core.registers.raised count) sp emulation (depth + 1)
  simp only [Core.peek]
  rw [slot, Registers.slot_raised, Nat.add_right_comm]

end Core

namespace Exec

variable {core next : Core}

/-- A word is laid on the stack with its low byte on top. -/
theorem lays_of_push16 {value : UInt16} (h : push16 value core = .ok () next) :
    next.registers = core.registers.lowered 2 ∧
      core.Lays next [Word.low value, Word.high value] := by
  obtain ⟨_, middle, first, second⟩ := Action.exists_of_bind_eq_ok h
  obtain ⟨registers, high⟩ := lays_of_push8 first
  obtain ⟨registers', low⟩ := lays_of_push8 second
  refine ⟨?_, high.trans low ?_⟩
  · rw [registers', registers, Registers.lowered_lowered]
  · exact Nat.le_trans (by simp) core.registers.le_stackCapacity

/-- The two bytes on top are pulled as a word. -/
theorem pull16_of_peek {low high : UInt8} (first : core.peek 0 = .ok low)
    (second : core.peek 1 = .ok high) :
    pull16 core = .ok (Word.join high low) ⟨core.registers.raised 2, core.bus⟩ := by
  have below : Core.peek ⟨core.registers.raised 1, core.bus⟩ 0 = .ok high := by
    rw [Core.peek_raised rfl rfl]
    exact second
  have pulled := pull8_of_peek below
  rw [Registers.raised_raised] at pulled
  rw [pull16, Action.bind_of_ok (pull8_of_peek first), Action.bind_of_ok pulled]
  rfl

end Exec

end W65C816
