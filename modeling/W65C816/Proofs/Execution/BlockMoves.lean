import W65C816.Proofs.Execution.Counting
import W65C816.Proofs.Execution.Outcomes
import W65C816.Proofs.Execution.Steps
import W65C816.Proofs.Program.Reassembly
import W65C816.Proofs.Registers.Wrapping

/-!
# Block moves

A block move copies one byte in a step and goes back to itself until its count, the sixteen bits of
the accumulator, has run out. `BlockMove.exists_step` is what one step does, and
`BlockMove.InReach.afterSteps_eq` what a number of them has done: where the registers are,
`BlockMove.progress`, and which bytes were copied, one after the other. A byte that was copied may
be the source of a later copy, so what is copied is what lies there at that time; only where the
destinations are apart from the sources and from each other do they end up with what the sources
held in the beginning.
-/

set_option autoImplicit false

namespace W65C816

open Addressing

/-- The machine after a number of steps, whether they succeed or fail. -/
def Machine.afterSteps (table : DispatchTable) (machine : Machine) : Nat → Machine
  | 0 => machine
  | count + 1 => Action.stateAfter (step table (afterSteps table machine count))

/-! ## Copies -/

namespace View

/-- The next view is the same one but for a byte, which is what another byte was. -/
structure Copies (view next : View) (source target : Nat) : Prop where
  start : next.start = view.start
  length : next.length = view.length
  size : next.memory.size = view.memory.size
  copied : next.byteAt target = view.byteAt source
  others : ∀ index, index ≠ view.start + target → next.memory.byte index = view.memory.byte index

/-- The view after a byte of it was copied. -/
def copy (view : View) (source target : Nat) : View :=
  view.setAll (view.start + target) [view.byteAt source]

/-- Copying a byte leaves the start of a view in place. -/
@[simp] theorem start_copy (view : View) (source target : Nat) :
    (view.copy source target).start = view.start := rfl

/-- Copying a byte keeps the length of a view. -/
@[simp] theorem length_copy (view : View) (source target : Nat) :
    (view.copy source target).length = view.length := rfl

/-- Copying to a position inside a view puts the byte there. -/
theorem copies_copy {view : View} {target : Nat} (inside : target < view.length) (source : Nat) :
    view.Copies (view.copy source target) source target := by
  have room : target + [view.byteAt source].length ≤ view.length := inside
  exact {
    start := rfl
    length := rfl
    size := Memory.size_setAll ..
    copied := (holds_setAll room).2.1
    others := fun index apart =>
      Memory.byte_setAll_of_outside _ _ _ (by rw [List.length_singleton]; omega) }

/-- A copy changes no byte but its target. -/
theorem Copies.byteAt {view next : View} {source target position : Nat}
    (h : view.Copies next source target) (apart : position ≠ target) :
    next.byteAt position = view.byteAt position := by
  rw [View.byteAt, h.start]
  exact h.others _ (by omega)

end View

/-! ## The instruction -/

/-- The direction in which a block is gone through. -/
inductive BlockMove where
  | upward
  | downward
deriving DecidableEq, Repr

namespace BlockMove

/-- The instruction that moves a block. -/
def instruction : BlockMove → Instruction
  | .upward => ⟨0x54, .mvn, .blockMove⟩
  | .downward => ⟨0x44, .mvp, .blockMove⟩

/-- Where an index is that has gone on by a number of bytes. -/
def along : BlockMove → UInt16 → Nat → UInt16
  | .upward, index, count => index + UInt16.ofNat count
  | .downward, index, count => index - UInt16.ofNat count

/-- The record of the instruction at an address. -/
def record (move : BlockMove) (source destination : UInt8) (offset : UInt32) : Record where
  offset
  instruction := move.instruction
  operands := { first := source.toUInt32, second := destination.toUInt32, length := 2 }

/-- The bytes of the instruction. -/
def bytes (move : BlockMove) (source destination : UInt8) : List UInt8 :=
  [move.instruction.code, destination, source]

variable {move : BlockMove} {source destination : UInt8} {r : Registers}

/-- The standard table has both block moves at their codes. -/
theorem get_standard (move : BlockMove) :
    DispatchTable.standard.get move.instruction.code = move.instruction := by
  cases move with
  | upward => exact DispatchTable.get_standard  (by decide +kernel)
  | downward => exact DispatchTable.get_standard  (by decide +kernel)

/-- The instruction is read where its bytes are. -/
theorem decodeAt_of_holds {view : View} {offset : UInt32} (widths : Widths)
    (here : view.Holds offset.toNat (move.bytes source destination)) :
    DispatchTable.standard.decodeAt (.flat view) offset widths =
      .ok (move.record source destination offset) := by
  have mode : move.instruction.mode = .blockMove := by cases move <;> rfl
  have valid : move.instruction.isValid = true := by cases move <;> rfl
  refine (DispatchTable.decodeAt_flat_eq_ok_iff _ _ _ _ _ valid).mpr
    ⟨rfl, move.get_standard, by cases move <;> rfl, ?_, ?_⟩
  · simp only [record, Instruction.reduce, mode, if_true]
    rw [← toUInt32_low, ← toUInt32_low, low_toUInt32, low_toUInt32]
  · simp only [record, Instruction.operandBytes, mode, if_true, low_toUInt32]
    exact here

/-! ## The registers -/

/-- The registers after a number of copies, as long as the count has not run out. -/
def moved (move : BlockMove) (destination : UInt8) (count : Nat) (r : Registers) : Registers :=
  { r with
    x := r.index (move.along r.x count)
    y := r.index (move.along r.y count)
    db := destination
    instructions := r.instructions + UInt64.ofNat count : Registers }.setC
      (r.c - UInt16.ofNat count)

/-- The registers in the course of a move: the program counter leaves the instruction when the count
has run out. -/
def progress (move : BlockMove) (destination : UInt8) (r : Registers) : Nat → Registers
  | 0 => r
  | count + 1 =>
    { move.moved destination (count + 1) r with
      pc := if count = r.c.toNat then r.pc + 3 else r.pc }

/-- The address that a copy reads from. -/
def sourceAt (move : BlockMove) (bank : UInt8) (r : Registers) (count : Nat) : UInt32 :=
  Address.ofBank bank (r.index (move.along r.x count))

/-- The address that a copy writes to. -/
def targetAt (move : BlockMove) (bank : UInt8) (r : Registers) (count : Nat) : UInt32 :=
  Address.ofBank bank (r.index (move.along r.y count))

/-- What a step makes of the registers. -/
def turned (move : BlockMove) (destination : UInt8) (r : Registers) : Registers :=
  Machine.countedRegisters (Effect.afterMove (move.along · 1) destination (r.advance 3))

/-- Before the first byte an index is where it was. -/
theorem along_zero (move : BlockMove) (index : UInt16) : move.along index 0 = index := by
  cases move <;> simp [along]

/-- Narrowing the index between the bytes of a move does not change where the move leads. -/
theorem narrow_along (move : BlockMove) (width : Width) (index : UInt16) (count more : Nat) :
    width.narrow (move.along (width.narrow (move.along index count)) more) =
      width.narrow (move.along index (count + more)) := by
  cases move with
  | upward => rw [along, along, along, Width.narrow_add, UInt16.ofNat_add]
  | downward => rw [along, along, along, Width.narrow_sub, UInt16.ofNat_add]

/-- The first copies and then the others make all of them. -/
theorem moved_moved (move : BlockMove) (destination : UInt8) (count more : Nat) (r : Registers) :
    move.moved destination more (move.moved destination count r) =
      move.moved destination (count + more) r := by
  have count_left : (move.moved destination count r).c = r.c - UInt16.ofNat count :=
    Registers.c_setC _ _
  have left : r.c - UInt16.ofNat count - UInt16.ofNat more = r.c - UInt16.ofNat (count + more) := by
    rw [UInt16.ofNat_add]
    grind
  have x : r.index (move.along (r.index (move.along r.x count)) more) =
      r.index (move.along r.x (count + more)) := move.narrow_along _ _ _ _
  have y : r.index (move.along (r.index (move.along r.y count)) more) =
      r.index (move.along r.y (count + more)) := move.narrow_along _ _ _ _
  have index (value : UInt16) : (move.moved destination count r).index value = r.index value := by
    rw [moved, Registers.setC_eq]
    rfl
  rw [moved, count_left, left, index, index]
  simp only [moved, Registers.setC_eq, x, y, UInt64.ofNat_add, UInt64.add_assoc]
  split <;> rfl

/-- A step moves on by one byte, and past the instruction if the count has run out. -/
theorem turned_eq (move : BlockMove) (destination : UInt8) (r : Registers) :
    move.turned destination r =
      { move.moved destination 1 r with pc := if r.c = 0 then r.pc + 3 else r.pc } := by
  have last : r.c - 1 = 0xFFFF ↔ r.c = 0 := by grind
  have count : (r.advance 3).c = r.c := rfl
  have back : r.pc + UInt16.ofNat 3 - 3 = r.pc := UInt16.add_sub_cancel ..
  simp only [turned, Machine.countedRegisters, Effect.afterMove, count, last]
  by_cases done : r.c = 0
  · simp only [if_pos done, moved, Registers.setC_eq]
    rfl
  · simp only [if_neg done, moved, Registers.setC_eq]
    simp only [Registers.setX, Registers.setY, Registers.advance, back]
    rfl

/-- Each byte that is moved counts the accumulator down by one. -/
theorem c_moved (move : BlockMove) (destination : UInt8) (count : Nat) (r : Registers) :
    (move.moved destination count r).c = r.c - UInt16.ofNat count :=
  Registers.c_setC _ _

/-- As long as the count has not run out, the program counter stays. -/
theorem progress_of_lt {count : Nat} (more : count < r.c.toNat) :
    move.progress destination r (count + 1) = move.moved destination (count + 1) r := by
  rw [progress, if_neg (Nat.ne_of_lt more), moved, Registers.setC_eq]

/-- One more byte takes the move one further. -/
theorem turned_progress {count : Nat} (more : count ≤ r.c.toNat) :
    move.turned destination (move.progress destination r count) =
      move.progress destination r (count + 1) := by
  have bound := r.c.toNat_lt
  cases count with
  | zero =>
    have done : r.c = 0 ↔ 0 = r.c.toNat := by
      rw [← UInt16.toNat_inj]
      exact eq_comm
    simp only [progress, turned_eq, done]
  | succ count =>
    have done : r.c - UInt16.ofNat (count + 1) = 0 ↔ count + 1 = r.c.toNat := by
      have small : (UInt16.ofNat (count + 1)).toNat = count + 1 := by
        rw [UInt16.toNat_ofNat']
        omega
      rw [UInt16.sub_eq_iff_eq_add, ← UInt16.toNat_inj, UInt16.zero_add, small]
      exact eq_comm
    have pc : (move.moved destination (count + 1) r).pc = r.pc := by
      rw [moved, Registers.setC_eq]
    rw [progress_of_lt more, turned_eq, moved_moved, c_moved, pc]
    simp only [done, progress]

/-- As the move goes on, X goes along with it. -/
theorem xIndex_progress (move : BlockMove) (destination : UInt8) (r : Registers) (count : Nat) :
    (move.progress destination r count).xIndex = r.index (move.along r.x count) := by
  cases count with
  | zero => rw [progress, along_zero, Registers.xIndex]
  | succ count =>
    rw [progress, moved, Registers.setC_eq]
    exact Width.narrow_narrow _ _

/-- As the move goes on, Y goes along with it. -/
theorem yIndex_progress (move : BlockMove) (destination : UInt8) (r : Registers) (count : Nat) :
    (move.progress destination r count).yIndex = r.index (move.along r.y count) := by
  cases count with
  | zero => rw [progress, along_zero, Registers.yIndex]
  | succ count =>
    rw [progress, moved, Registers.setC_eq]
    exact Width.narrow_narrow _ _

/-- Until the move is done, the program counter comes back to it. -/
theorem fullPc_progress {count : Nat} (more : count ≤ r.c.toNat) :
    (move.progress destination r count).fullPc = r.fullPc := by
  cases count with
  | zero => rfl
  | succ count =>
    rw [progress_of_lt more, moved, Registers.setC_eq]
    rfl

/-! ## Steps -/

/-- Moving a byte reads it, writes it, and goes on. -/
theorem performMove_eq {view : View} (stride : UInt16 → UInt16) (r : Registers)
    (readable : (Address.ofBank source r.xIndex).toNat < view.length)
    (writable : (Address.ofBank destination r.yIndex).toNat < view.length) :
    Effect.performMove stride source destination ⟨r, .flat view⟩ =
      .ok () ⟨Effect.afterMove stride destination r,
        .flat (view.copy (Address.ofBank source r.xIndex).toNat
          (Address.ofBank destination r.yIndex).toNat)⟩ := by
  have read := (View.read8_eq_ok_iff view (Address.ofBank source r.xIndex) _).mpr
    ⟨readable, rfl, trivial⟩
  have written : Bus.write8 (Address.ofBank destination r.yIndex)
      (view.byteAt (Address.ofBank source r.xIndex).toNat) (.flat view) =
      .ok () (.flat (view.copy (Address.ofBank source r.xIndex).toNat
        (Address.ofBank destination r.yIndex).toNat)) := by
    have located : view.locate (Address.ofBank destination r.yIndex) 1 = .ok _ :=
      View.locate_of_room Nat.one_pos writable
    simp only [Bus.write8, View.write8, View.write, List.length_singleton, located]
    rfl
  simp only [Effect.performMove]
  rw [Action.bind_of_ok (Exec.registers_apply _), Action.bind_of_ok (Exec.ask_of_ok read),
    Action.bind_of_ok (Exec.onBus_of_ok written)]
  rfl

/-- A step copies a byte and turns the registers. -/
theorem exists_step {machine : Machine} {view : View} (flat : machine.bus = .flat view)
    (here : view.Holds machine.registers.fullPc.toNat (move.bytes source destination))
    (readable : (Address.ofBank source machine.registers.xIndex).toNat < view.length)
    (writable : (Address.ofBank destination machine.registers.yIndex).toNat < view.length) :
    ∃ next, Machine.step DispatchTable.standard machine =
        .ok (move.record source destination machine.registers.fullPc) next ∧
      next.registers = move.turned destination machine.registers ∧
      next.bus = .flat (view.copy (Address.ofBank source machine.registers.xIndex).toNat
        (Address.ofBank destination machine.registers.yIndex).toNat) := by
  have read := decodeAt_of_holds machine.registers.widths here
  rw [← flat] at read
  have opcode : move.instruction.opcode ≠ .wdm := by cases move <;> decide
  have effect : move.instruction.execute
      (move.record source destination machine.registers.fullPc).operands =
      Effect.performMove (move.along · 1) (Address.low source.toUInt32)
        (Address.low destination.toUInt32) := by
    cases move <;> rfl
  rw [low_toUInt32, low_toUInt32] at effect
  have performed := performMove_eq (move.along · 1) (machine.registers.advance 3) readable writable
  rw [← flat] at performed
  exact Machine.exists_step_of_execute opcode read ((congrFun effect _).trans performed)

/-! ## The whole move -/

/-- The instruction and every byte that it copies are within reach, and it does not write over
itself. -/
structure InReach (move : BlockMove) (source destination : UInt8) (machine : Machine)
    (view : View) : Prop where
  flat : machine.bus = .flat view
  here : view.Holds machine.registers.fullPc.toNat (move.bytes source destination)
  readable : ∀ i ≤ machine.registers.c.toNat,
    (move.sourceAt source machine.registers i).toNat < view.length
  writable : ∀ i ≤ machine.registers.c.toNat,
    (move.targetAt destination machine.registers i).toNat < view.length
  apart : ∀ i ≤ machine.registers.c.toNat,
    (move.targetAt destination machine.registers i).toNat < machine.registers.fullPc.toNat ∨
      machine.registers.fullPc.toNat + 3 ≤ (move.targetAt destination machine.registers i).toNat

/-- The view after a number of copies. -/
def copies (move : BlockMove) (source destination : UInt8) (r : Registers) (view : View) :
    Nat → View
  | 0 => view
  | count + 1 =>
    (copies move source destination r view count).copy (move.sourceAt source r count).toNat
      (move.targetAt destination r count).toNat

variable {view : View} {machine : Machine} {count : Nat}

/-- Copying several bytes leaves the start of a view in place. -/
@[simp] theorem start_copies (count : Nat) :
    (move.copies source destination r view count).start = view.start := by
  induction count with
  | zero => rfl
  | succ count ih => rw [copies, View.start_copy, ih]

/-- Copying several bytes keeps the length of a view. -/
@[simp] theorem length_copies (count : Nat) :
    (move.copies source destination r view count).length = view.length := by
  induction count with
  | zero => rfl
  | succ count ih => rw [copies, View.length_copy, ih]

/-- The next byte is copied from where the move has got to. -/
theorem copies_succ (source : UInt8)
    (inside : (move.targetAt destination r count).toNat < view.length) :
    (move.copies source destination r view count).Copies
      (move.copies source destination r view (count + 1)) (move.sourceAt source r count).toNat
      (move.targetAt destination r count).toNat :=
  View.copies_copy (by rwa [length_copies]) _

/-- A byte that is no destination stays as it was. -/
theorem byte_copies {index : Nat}
    (inside : ∀ i < count, (move.targetAt destination r i).toNat < view.length)
    (apart : ∀ i < count, index ≠ view.start + (move.targetAt destination r i).toNat) :
    (move.copies source destination r view count).memory.byte index =
      view.memory.byte index := by
  induction count with
  | zero => rfl
  | succ count ih =>
    have last := Nat.lt_succ_self count
    have elsewhere : index ≠ (move.copies source destination r view count).start +
        (move.targetAt destination r count).toNat := by
      rw [start_copies]
      exact apart count last
    rw [(copies_succ source (inside count last)).others index elsewhere]
    exact ih (fun i below => inside i (Nat.lt_succ_of_lt below)) fun i below =>
      apart i (Nat.lt_succ_of_lt below)

/-- The bytes that are nowhere the target of the move stay. -/
theorem byteAt_copies {position : Nat}
    (inside : ∀ i < count, (move.targetAt destination r i).toNat < view.length)
    (apart : ∀ i < count, position ≠ (move.targetAt destination r i).toNat) :
    (move.copies source destination r view count).byteAt position = view.byteAt position := by
  rw [View.byteAt, start_copies]
  exact byte_copies inside fun i below same => apart i below (Nat.add_left_cancel same)

/-- Destinations that are apart from the sources and from each other get what the sources held in
the beginning. -/
theorem byteAt_target
    (inside : ∀ i < count, (move.targetAt destination r i).toNat < view.length)
    (disjoint : ∀ i < count, ∀ j < count, move.sourceAt source r i ≠ move.targetAt destination r j)
    (distinct : ∀ i < count, ∀ j < count,
      move.targetAt destination r i = move.targetAt destination r j → i = j)
    {i : Nat} (below : i < count) :
    (move.copies source destination r view count).byteAt
        (move.targetAt destination r i).toNat =
      view.byteAt (move.sourceAt source r i).toNat := by
  induction count with
  | zero => cases below
  | succ count ih =>
    have last := Nat.lt_succ_self count
    have inside' (j : Nat) (h : j < count) := inside j (Nat.lt_succ_of_lt h)
    have copied := copies_succ source (inside count last)
    rcases Nat.lt_succ_iff_lt_or_eq.mp below with earlier | rfl
    · have apart : (move.targetAt destination r i).toNat ≠
          (move.targetAt destination r count).toNat := fun same =>
        Nat.ne_of_lt earlier (distinct i below count last (UInt32.toNat_inj.mp same))
      rw [copied.byteAt apart]
      exact ih inside' (fun i h j h' => disjoint i (Nat.lt_succ_of_lt h) j (Nat.lt_succ_of_lt h'))
        (fun i h j h' => distinct i (Nat.lt_succ_of_lt h) j (Nat.lt_succ_of_lt h')) earlier
    · rw [copied.copied]
      exact byteAt_copies inside' fun j h same =>
        disjoint i below j (Nat.lt_succ_of_lt h) (UInt32.toNat_inj.mp same)

/-- The instruction is still there after a number of copies. -/
theorem InReach.holds (h : move.InReach source destination machine view)
    (bound : count ≤ machine.registers.c.toNat) :
    (move.copies source destination machine.registers view count).Holds
      machine.registers.fullPc.toNat (move.bytes source destination) := by
  refine h.here.frame (Nat.le_of_eq (length_copies _).symm) fun position above below => ?_
  have short : (move.bytes source destination).length = 3 := rfl
  refine byteAt_copies (fun i less => h.writable i (by omega)) fun i less same => ?_
  have apart := h.apart i (by omega)
  omega

/-- A step in the course of the move copies the next byte. -/
theorem InReach.exists_step (h : move.InReach source destination machine view)
    (bound : count ≤ machine.registers.c.toNat) {now : Machine}
    (registers : now.registers = move.progress destination machine.registers count)
    (bus : now.bus = .flat (move.copies source destination machine.registers view count)) :
    ∃ next, Machine.step .standard now =
        .ok (move.record source destination machine.registers.fullPc) next ∧
      next.registers = move.progress destination machine.registers (count + 1) ∧
      next.bus = .flat (move.copies source destination machine.registers view (count + 1)) := by
  have pc : now.registers.fullPc = machine.registers.fullPc := by
    rw [registers, fullPc_progress bound]
  have x : now.registers.xIndex =
      machine.registers.index (move.along machine.registers.x count) := by
    rw [registers, xIndex_progress]
  have y : now.registers.yIndex =
      machine.registers.index (move.along machine.registers.y count) := by
    rw [registers, yIndex_progress]
  obtain ⟨next, step, after, written⟩ := BlockMove.exists_step bus
    (by rw [pc]; exact h.holds bound)
    (by rw [x, length_copies]; exact h.readable count bound)
    (by rw [y, length_copies]; exact h.writable count bound)
  refine ⟨next, pc ▸ step, ?_, ?_⟩
  · rw [after, registers, turned_progress bound]
  · rw [written, x, y]
    rfl

/-- What a number of steps has done. By induction on the steps, each of which finds the instruction
where the first one found it. -/
theorem InReach.afterSteps_eq (h : move.InReach source destination machine view)
    (bound : count ≤ machine.registers.c.toNat + 1) :
    (machine.afterSteps .standard count).registers =
        move.progress destination machine.registers count ∧
      (machine.afterSteps .standard count).bus =
        .flat (move.copies source destination machine.registers view count) := by
  induction count with
  | zero => exact ⟨rfl, h.flat⟩
  | succ count ih =>
    obtain ⟨registers, bus⟩ := ih (Nat.le_of_succ_le bound)
    obtain ⟨next, step, after⟩ := h.exists_step (Nat.le_of_succ_le_succ bound) registers bus
    rw [Machine.afterSteps, step]
    exact after

/-- Each of these steps succeeds with the instruction of the move. -/
theorem InReach.step_afterSteps (h : move.InReach source destination machine view)
    (bound : count ≤ machine.registers.c.toNat) :
    Machine.step .standard (machine.afterSteps .standard count) =
      .ok (move.record source destination machine.registers.fullPc)
        (machine.afterSteps .standard (count + 1)) := by
  obtain ⟨registers, bus⟩ := h.afterSteps_eq (Nat.le_succ_of_le bound)
  obtain ⟨next, step, -⟩ := h.exists_step bound registers bus
  rw [Machine.afterSteps, step]
  rfl

end BlockMove

/-- A block move takes one step more than its count says. Each step copies the byte that then lies
at the next source; the last one leaves the instruction. As many steps are counted, where the count
of instructions wraps around at its greatest value. -/
theorem blockMove_copies {move : BlockMove} {source destination : UInt8} {machine : Machine}
    {view : View} (h : move.InReach source destination machine view) :
    let r := machine.registers
    let c := r.c.toNat
    let after := machine.afterSteps .standard
    let sourceAt := fun i => (move.sourceAt source r i).toNat
    let targetAt := fun i => (move.targetAt destination r i).toNat
    (∀ i ≤ c, (after i).registers.fullPc = r.fullPc ∧
      Machine.step .standard (after i) =
        .ok (move.record source destination r.fullPc) (after (i + 1)) ∧
      ∃ before next, (after i).bus = .flat before ∧ (after (i + 1)).bus = .flat next ∧
        before.Copies next (sourceAt i) (targetAt i)) ∧
    (after (c + 1)).registers = { r with
      x := r.index (move.along r.x (c + 1))
      y := r.index (move.along r.y (c + 1))
      db := destination
      pc := r.pc + 3
      instructions := r.instructions + UInt64.ofNat (c + 1) : Registers }.setC 0xFFFF ∧
    (r.instructions.toNat + (c + 1) < UInt64.size →
      (after (c + 1)).registers.instructions.toNat = r.instructions.toNat + (c + 1)) ∧
    ((∀ i ≤ c, ∀ j ≤ c, sourceAt i ≠ targetAt j) →
      (∀ i ≤ c, ∀ j ≤ c, targetAt i = targetAt j → i = j) →
      ∃ last, (after (c + 1)).bus = .flat last ∧
        (∀ i ≤ c, last.byteAt (targetAt i) = view.byteAt (sourceAt i)) ∧
        ∀ index, (∀ i ≤ c, index ≠ view.start + targetAt i) →
          last.memory.byte index = view.memory.byte index) := by
  intro r c after sourceAt targetAt
  have moved : (after (c + 1)).registers = { r with
      x := r.index (move.along r.x (c + 1))
      y := r.index (move.along r.y (c + 1))
      db := destination
      pc := r.pc + 3
      instructions := r.instructions + UInt64.ofNat (c + 1) : Registers }.setC 0xFFFF := by
    have spent : r.c - UInt16.ofNat (c + 1) = 0xFFFF := by
      rw [UInt16.ofNat_add, UInt16.ofNat_toNat]
      grind
    rw [(h.afterSteps_eq (Nat.le_refl _)).1, BlockMove.progress, if_pos rfl, BlockMove.moved, spent,
      Registers.setC_eq, Registers.setC_eq]
  refine ⟨fun i bound => ?_, moved, fun room => ?_, fun disjoint distinct => ?_⟩
  · obtain ⟨registers, bus⟩ := h.afterSteps_eq (Nat.le_succ_of_le bound)
    obtain ⟨-, bus'⟩ := h.afterSteps_eq (Nat.succ_le_succ bound)
    refine ⟨?_, h.step_afterSteps bound, _, _, bus, bus',
      BlockMove.copies_succ source (h.writable i bound)⟩
    rw [registers, BlockMove.fullPc_progress bound]
  · refine Registers.toNat_instructions ?_ room
    rw [moved, Registers.instructions_setC]
  · refine ⟨_, (h.afterSteps_eq (Nat.le_refl _)).2, fun i bound => ?_, fun index apart => ?_⟩
    · exact BlockMove.byteAt_target (fun i below => h.writable i (Nat.le_of_lt_succ below))
        (fun i below j below' same => disjoint i (Nat.le_of_lt_succ below) j
          (Nat.le_of_lt_succ below') (congrArg UInt32.toNat same))
        (fun i below j below' same => distinct i (Nat.le_of_lt_succ below) j
          (Nat.le_of_lt_succ below') (congrArg UInt32.toNat same)) (Nat.lt_succ_of_le bound)
    · exact BlockMove.byte_copies (fun i below => h.writable i (Nat.le_of_lt_succ below))
        fun i below => apart i (Nat.le_of_lt_succ below)

/-- An instruction that copies the first two of its own bytes. -/
theorem blockMove_copies_two :
    let view := (View.whole .least).setAll 0 [0x54, 0x00, 0x00]
    let machine : Machine := { core := ⟨{ a := 1, y := 0x20, instructions := 7 }, .flat view⟩ }
    let last := machine.afterSteps .standard 2
    last.registers = { a := 0xFF, b := 0xFF, x := 2, y := 0x22, pc := 3, instructions := 9 } ∧
      last.registers.instructions.toNat = machine.registers.instructions.toNat + 2 ∧
      ∃ moved, last.bus = .flat moved ∧ moved.byteAt 0x20 = 0x54 ∧ moved.byteAt 0x21 = 0x00 := by
  intro view machine last
  have count : machine.registers.c.toNat = 1 := by decide +kernel
  have length : view.length = 0x200 := Memory.size_least
  have here : view.Holds 0 [0x54, 0x00, 0x00] :=
    @View.holds_setAll (.whole .least) 0 _ (by decide +kernel)
  have pc : machine.registers.fullPc.toNat = 0 := by decide +kernel
  have bytes : BlockMove.upward.bytes 0x00 0x00 = [0x54, 0x00, 0x00] := rfl
  have reach : BlockMove.upward.InReach 0x00 0x00 machine view := by
    refine ⟨rfl, ?_, ?_, ?_, ?_⟩
    · rw [pc, bytes]
      exact here
    · rw [count, length]
      decide +kernel
    · rw [count, length]
      decide +kernel
    · rw [count, pc]
      decide +kernel
  obtain ⟨-, registers, counted, moved⟩ := blockMove_copies reach
  rw [count] at registers counted moved
  obtain ⟨next, bus, copied, -⟩ := moved (by decide +kernel) (by decide +kernel)
  have first : next.byteAt 0x20 = view.byteAt 0x00 := copied 0 (by decide)
  have second : next.byteAt 0x21 = view.byteAt 0x01 := copied 1 (by decide)
  exact ⟨registers.trans (by decide +kernel), counted (by decide), next, bus,
    first.trans here.2.1, second.trans here.2.2.2.1⟩

end W65C816
