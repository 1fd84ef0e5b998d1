import W65C816.Proofs.Execution.Stack
import W65C816.Proofs.Memory.Changes

/-!
# Last in, first out

What was pushed comes back in reverse, however bytes and words are mixed and wherever the stack
pointer wraps, as long as the stack has room for all of it: `Exec.pullAll_of_pushAll`. The account
of the pushes is `Exec.lays_of_pushAll`, by induction on the items: they come to one row of bytes,
the last item on top. The account of the pulls is `Exec.pullAll_of_top`, which takes such a row off
item by item.

Of the memory, a push changes the byte at the stack pointer and no other one, so a number of pushes
changes the bytes at the positions that the stack pointer goes through, the
`Registers.pushedPositions`. In emulation mode these are in every memory, and pushes never fail.
-/

set_option autoImplicit false

namespace W65C816

/-! ## Positions of pushes -/

namespace Registers

/-- The positions of the bytes that are pushed one after another. -/
def pushedPositions (r : Registers) (count : Nat) : List UInt16 :=
  (List.range count).map fun i => (r.lowered i).sp

/-- More bytes go below those that were pushed before. -/
theorem pushedPositions_add (r : Registers) (a b : Nat) :
    r.pushedPositions (a + b) = r.pushedPositions a ++ (r.lowered a).pushedPositions b := by
  simp only [pushedPositions, List.range_add, List.map_append, List.map_map, Function.comp_def,
    lowered_lowered]

/-- One byte goes to where the pointer is. -/
theorem pushedPositions_one (r : Registers) : r.pushedPositions 1 = [r.wrapStack r.sp] := by
  simp [pushedPositions, List.range_succ, lowered]

/-- In emulation mode everything that is pushed lies in the page of the stack. -/
theorem bounds_of_mem_pushedPositions {r : Registers} {count : Nat} {position : UInt16}
    (emulation : r.emulation = true) (h : position ∈ r.pushedPositions count) :
    0x0100 ≤ position ∧ position ≤ 0x01FF := by
  obtain ⟨i, -, rfl⟩ := List.mem_map.mp h
  exact WellFormed.wrapStack_bounds emulation _

end Registers

/-! ## The top of the stack -/

namespace Core

/-- The row of bytes is on top of the stack. -/
def Top (core : Core) (row : List UInt8) : Prop :=
  ∀ i (h : i < row.length), core.peek i = .ok row[i]

variable {core : Core} {above below : List UInt8}

/-- What is on top of a longer row is on top. -/
theorem Top.left (h : core.Top (above ++ below)) : core.Top above := by
  intro i bound
  rw [h i (by rw [List.length_append]; omega), List.getElem_append_left bound]

/-- What lies below comes up when what lies above is pulled. -/
theorem Top.right (h : core.Top (above ++ below)) :
    Top ⟨core.registers.raised above.length, core.bus⟩ below := by
  intro i bound
  rw [peek_raised rfl rfl, h (i + above.length) (by rw [List.length_append]; omega)]
  simp

end Core

/-! ## Items -/

/-- What is pushed and pulled at once. -/
inductive StackItem where
  | byte (value : UInt8)
  | word (value : UInt16)
deriving DecidableEq, Repr

namespace StackItem

/-- How wide the item is, which is all that has to be known to pull it. -/
def width : StackItem → Width
  | .byte _ => .byte
  | .word _ => .word

/-- The bytes of the item on the stack, the top one first. -/
def bytes : StackItem → List UInt8
  | .byte value => [value]
  | .word value => [Word.low value, Word.high value]

/-- The number of bytes that the items take. -/
def size : List StackItem → Nat
  | [] => 0
  | item :: rest => item.width.bytes + size rest

/-- The bytes of items that were pushed one after another, the top one first. -/
def row (items : List StackItem) : List UInt8 :=
  items.reverse.flatMap bytes

/-- An item has as many bytes as its width. -/
theorem length_bytes (item : StackItem) : item.bytes.length = item.width.bytes := by
  cases item <;> rfl

/-- The size of several items counts their bytes. -/
theorem length_flatMap_bytes (items : List StackItem) :
    (items.flatMap bytes).length = size items := by
  induction items with
  | nil => rfl
  | cons item rest ih =>
    rw [List.flatMap_cons, List.length_append, length_bytes, ih, size]

/-- The sizes of items add up. -/
theorem size_append (early late : List StackItem) :
    size (early ++ late) = size early + size late := by
  simp only [← length_flatMap_bytes, List.flatMap_append, List.length_append]

/-- The order of the items does not matter to their size. -/
theorem size_reverse (items : List StackItem) : size items.reverse = size items := by
  induction items with
  | nil => rfl
  | cons item rest ih =>
    rw [List.reverse_cons, size_append, ih, size, size, size]
    omega

/-- The row of several items has as many bytes as they have together. -/
theorem length_row (items : List StackItem) : (row items).length = size items := by
  rw [row, length_flatMap_bytes, size_reverse]

/-- The item that is pushed first is at the bottom of the row. -/
theorem row_cons (item : StackItem) (rest : List StackItem) :
    row (item :: rest) = row rest ++ item.bytes := by
  simp [row]

/-- What was pushed last is on top. -/
theorem row_append (early late : List StackItem) : row (early ++ late) = row late ++ row early := by
  simp [row]

end StackItem

open StackItem (size row)

namespace Exec

/-- Pushes an item. -/
def pushItem : StackItem → Exec Unit
  | .byte value => push8 value
  | .word value => push16 value

/-- Pulls an item of a width. -/
def pullItem : Width → Exec StackItem
  | .byte => do
    let value ← pull8
    pure (.byte value)
  | .word => do
    let value ← pull16
    pure (.word value)

/-- Pushes items one after another. -/
def pushAll : List StackItem → Exec Unit
  | [] => pure ()
  | item :: rest => do
    pushItem item
    pushAll rest

/-- Pulls items of the given widths one after another. -/
def pullAll : List Width → Exec (List StackItem)
  | [] => pure []
  | width :: rest => do
    let item ← pullItem width
    let items ← pullAll rest
    pure (item :: items)

variable {core next : Core}

/-! ## Pushes -/

/-- Pushing a byte changes the bus where the pointer was. -/
theorem changesAt_of_push8 {value : UInt8} (h : push8 value core = .ok () next) :
    core.bus.ChangesAt (core.registers.pushedPositions 1) next.bus := by
  obtain ⟨bus, written, rfl⟩ := exists_write_of_push8 h
  rw [Registers.pushedPositions_one]
  exact Bus.changesAt_of_write8 written

/-- Pushing a word changes the bus at the two positions from the pointer down. -/
theorem changesAt_of_push16 {value : UInt16} (h : push16 value core = .ok () next) :
    core.bus.ChangesAt (core.registers.pushedPositions 2) next.bus := by
  obtain ⟨_, middle, first, second⟩ := Action.exists_of_bind_eq_ok h
  have low := changesAt_of_push8 second
  rw [(lays_of_push8 first).1] at low
  have both := (changesAt_of_push8 first).trans low
  rwa [← Registers.pushedPositions_add] at both

/-- What a push does to the registers, the stack and the memory. -/
theorem lays_of_pushItem {item : StackItem} (h : pushItem item core = .ok () next) :
    next.registers = core.registers.lowered item.width.bytes ∧ core.Lays next item.bytes ∧
      core.bus.ChangesAt (core.registers.pushedPositions item.width.bytes) next.bus := by
  cases item with
  | byte value =>
    obtain ⟨registers, lays⟩ := lays_of_push8 h
    exact ⟨registers, lays, changesAt_of_push8 h⟩
  | word value =>
    obtain ⟨registers, lays⟩ := lays_of_push16 h
    exact ⟨registers, lays, changesAt_of_push16 h⟩

/-- Items that were pushed one after another lie on the stack as one row. By induction on the items:
what comes later is laid on what came before, as long as there is room for both. -/
theorem lays_of_pushAll {items : List StackItem} (page : core.registers.StackInPage)
    (room : size items ≤ core.registers.stackCapacity) (h : pushAll items core = .ok () next) :
    next.registers = core.registers.lowered (size items) ∧ core.Lays next (row items) ∧
      core.bus.ChangesAt (core.registers.pushedPositions (size items)) next.bus := by
  induction items generalizing core with
  | nil =>
    cases h
    refine ⟨page.lowered_zero.symm, ⟨?_, rfl, nofun, fun _ _ => rfl⟩, Bus.changesAt_refl _⟩
    exact congrArg Registers.sp page.lowered_zero.symm
  | cons item rest ih =>
    obtain ⟨_, middle, first, later⟩ := Action.exists_of_bind_eq_ok h
    obtain ⟨lowered, lays, changes⟩ := lays_of_pushItem first
    rw [StackItem.size] at room
    have capacity := Registers.stackCapacity_congr lays.emulation
    have page' : middle.registers.StackInPage := by
      rw [lowered]
      exact core.registers.stackInPage_lowered _
    obtain ⟨lowered', lays', changes'⟩ := ih page' (by omega) later
    refine ⟨?_, ?_, ?_⟩
    · rw [lowered', lowered, Registers.lowered_lowered, StackItem.size]
    · rw [StackItem.row_cons]
      apply lays.trans lays'
      rw [StackItem.length_row, StackItem.length_bytes]
      omega
    · rw [lowered] at changes'
      rw [StackItem.size, Registers.pushedPositions_add]
      exact changes.trans changes'

/-- A push succeeds where the position of the stack pointer is reachable. -/
theorem exists_push8_of_check (value : UInt8)
    (reachable : core.bus.check (core.registers.wrapStack core.registers.sp).toUInt32 1 = .ok ()) :
    ∃ next, push8 value core = .ok () next := by
  obtain ⟨bus, written⟩ := Bus.exists_write8_of_check value reachable
  have wrote := onBus_of_ok written
  exact ⟨_, (Action.bind_of_ok (registers_apply core)).trans (Action.bind_of_ok wrote)⟩

section Emulation

variable (emulation : core.registers.emulation = true)
  (room : Memory.leastSize ≤ core.bus.view.length)
include emulation room

/-- In emulation mode a byte can be pushed wherever the view has the least size. -/
theorem exists_push8_of_emulation (value : UInt8) : ∃ next, push8 value core = .ok () next :=
  exists_push8_of_check value
    (Bus.check_of_stackPage (Registers.WellFormed.wrapStack_bounds emulation _).2 room)

/-- In emulation mode every item can be pushed wherever the view has the least size. -/
theorem exists_pushItem_of_emulation (item : StackItem) :
    ∃ next, pushItem item core = .ok () next := by
  cases item with
  | byte value => exact exists_push8_of_emulation emulation room value
  | word value =>
    obtain ⟨middle, first⟩ := exists_push8_of_emulation emulation room (Word.high value)
    have kept := (lays_of_push8 first).2.emulation
    have length := (changesAt_of_push8 first).length
    rw [← length] at room
    obtain ⟨next, second⟩ := exists_push8_of_emulation (kept.trans emulation) room (Word.low value)
    exact ⟨next, (Action.bind_of_ok first).trans second⟩

/-- In emulation mode there is always memory for what is pushed, if the bus has all of a memory. -/
theorem exists_pushAll_of_emulation (items : List StackItem) :
    ∃ next, pushAll items core = .ok () next := by
  induction items generalizing core with
  | nil => exact ⟨core, rfl⟩
  | cons item rest ih =>
    obtain ⟨middle, first⟩ := exists_pushItem_of_emulation emulation room item
    obtain ⟨-, lays, changes⟩ := lays_of_pushItem first
    obtain ⟨next, later⟩ := ih (lays.emulation.trans emulation) (by rwa [changes.length])
    exact ⟨next, (Action.bind_of_ok first).trans later⟩

end Emulation

/-- Items are pushed one list after the other. -/
theorem pushAll_append (early late : List StackItem) :
    pushAll (early ++ late) = (do pushAll early; pushAll late) := by
  induction early with
  | nil => rfl
  | cons item rest ih =>
    rw [List.cons_append, pushAll, pushAll, ih]
    exact (bind_assoc _ _ _).symm

/-! ## Pulls -/

/-- A pull takes off the item whose bytes are on top. -/
theorem pullItem_of_top {item : StackItem} (top : core.Top item.bytes) :
    pullItem item.width core =
      .ok item ⟨core.registers.raised item.width.bytes, core.bus⟩ := by
  cases item with
  | byte value =>
    exact Action.bind_of_ok (pull8_of_peek (top 0 Nat.one_pos))
  | word value =>
    have pulled := pull16_of_peek (top 0 Nat.two_pos) (top 1 Nat.one_lt_two)
    simp only [StackItem.bytes, List.getElem_cons_zero, List.getElem_cons_succ,
      Word.join_high_low] at pulled
    exact Action.bind_of_ok pulled

/-- Pulls of the right widths take off items whose bytes lie on the stack, the top one first. By
induction on the items: a pull brings up those below. -/
theorem pullAll_of_top {items : List StackItem} (page : core.registers.StackInPage)
    (top : core.Top (items.flatMap StackItem.bytes)) :
    pullAll (items.map StackItem.width) core =
      .ok items ⟨core.registers.raised (size items), core.bus⟩ := by
  induction items generalizing core with
  | nil =>
    have raised := page.raised_lowered 0
    rw [page.lowered_zero] at raised
    show EStateM.Result.ok [] core = .ok [] ⟨core.registers.raised 0, core.bus⟩
    rw [raised]
  | cons item rest ih =>
    rw [List.flatMap_cons] at top
    have below := top.right
    rw [item.length_bytes] at below
    have page' : (core.registers.raised item.width.bytes).StackInPage :=
      fun emulation => Registers.WellFormed.wrapStack_bounds emulation _
    have others := @ih ⟨core.registers.raised item.width.bytes, core.bus⟩ page' below
    rw [List.map_cons, pullAll, Action.bind_of_ok (pullItem_of_top top.left),
      Action.bind_of_ok others, Registers.raised_raised, StackItem.size]
    rfl

/-- Items that fit the stack are pulled in the reverse of the order in which they were pushed, all
of them or those above any of them. The registers but for the stack pointer are never touched, and
the stack pointer comes back. The bytes of the memory that have changed are at the positions that
the stack pointer went through, which are in the first bank and, in emulation mode, in the page of
the stack. -/
theorem pullAll_of_pushAll {items : List StackItem} (page : core.registers.StackInPage)
    (room : size items ≤ core.registers.stackCapacity) (pushed : pushAll items core = .ok () next) :
    pullAll (items.reverse.map StackItem.width) next =
        .ok items.reverse ⟨core.registers, next.bus⟩ ∧
      (∀ early late, items = early ++ late →
        ∃ middle, pushAll early core = .ok () middle ∧
          middle.registers = core.registers.lowered (size early) ∧
          pullAll (late.reverse.map StackItem.width) next =
            .ok late.reverse ⟨middle.registers, next.bus⟩) ∧
      core.bus.ChangesAt (core.registers.pushedPositions (size items)) next.bus ∧
      ∀ position ∈ core.registers.pushedPositions (size items),
        (core.registers.emulation = true → 0x0100 ≤ position ∧ position ≤ 0x01FF) ∧
          Address.bank position.toUInt32 = 0 := by
  obtain ⟨lowered, lays, changes⟩ := lays_of_pushAll page room pushed
  have splits (early late : List StackItem) (split : items = early ++ late) :
      ∃ middle, pushAll early core = .ok () middle ∧
        middle.registers = core.registers.lowered (size early) ∧
        pullAll (late.reverse.map StackItem.width) next =
          .ok late.reverse ⟨middle.registers, next.bus⟩ := by
    rw [split] at pushed lays lowered
    rw [split, StackItem.size_append] at room
    rw [pushAll_append] at pushed
    obtain ⟨_, middle, first, second⟩ := Action.exists_of_bind_eq_ok pushed
    obtain ⟨lowered', -, -⟩ := lays_of_pushAll page (by omega) first
    have inPage (count : Nat) : (core.registers.lowered count).StackInPage :=
      core.registers.stackInPage_lowered count
    have top : next.Top (row late ++ row early) := by
      rw [← StackItem.row_append]
      exact lays.top
    have pulled := pullAll_of_top (by rw [lowered]; exact inPage _) top.left
    refine ⟨middle, first, lowered', ?_⟩
    have back : next.registers.raised (size late) = middle.registers := by
      rw [lowered, lowered', StackItem.size_append, ← Registers.lowered_lowered,
        (inPage (size early)).raised_lowered]
    rw [StackItem.size_reverse, back] at pulled
    exact pulled
  refine ⟨?_, splits, changes, fun position mem => ⟨fun emulation => ?_, ?_⟩⟩
  · obtain ⟨middle, none, -, pulled⟩ := splits [] items rfl
    cases none
    exact pulled
  · exact Registers.bounds_of_mem_pushedPositions emulation mem
  · exact Address.bank_toUInt32 position

/-- A byte, a word and a byte, of which the word lies around the end of the page. -/
theorem pullAll_of_pushAll_around :
    ∃ next, pushAll [.byte 1, .word 0x0302, .byte 4]
        ⟨{ sp := 0x0101 }, .banked (View.whole .least)⟩ = .ok () next ∧
      pullAll [.byte, .word, .byte] next =
        .ok [.byte 4, .word 0x0302, .byte 1] ⟨{ sp := 0x0101 }, next.bus⟩ := by
  let core : Core := ⟨{ sp := 0x0101 }, .banked (View.whole .least)⟩
  have room : Memory.leastSize ≤ core.bus.view.length := Nat.le_of_eq Memory.size_least.symm
  obtain ⟨next, pushed⟩ := exists_pushAll_of_emulation rfl room
    [.byte 1, .word 0x0302, .byte 4]
  have page : core.registers.StackInPage := fun _ => by decide
  exact ⟨next, pushed, (pullAll_of_pushAll page (by decide) pushed).1⟩

end Exec

end W65C816
