import W65C816.Proofs.Execution.Returns

/-!
# Nested calls

A subroutine may itself call others, and save things on the stack while it does. `Machine.Nested`
are the runs that do so properly: what is put on the stack is taken off again, whatever is held
there in the meantime is left alone, and all of it fits. Such a run keeps the stack pointer, the
mode, the bytes that are held and, unless it is free to leave it, the bank: `Machine.Nested.keeps`.
So every return goes back to its call: `calls_return`.
-/

set_option autoImplicit false

namespace W65C816

namespace Core

/-- The pointer and the mode are the same, and so are a number of bytes on top. -/
structure Keeps (held : Nat) (core next : Core) : Prop where
  sp : next.registers.sp = core.registers.sp
  emulation : next.registers.emulation = core.registers.emulation
  peek : ∀ i < held, next.peek i = core.peek i

/-- A number of bytes have been put on top of those that are held. -/
structure Lowers (held count : Nat) (core next : Core) : Prop where
  sp : next.registers.sp = (core.registers.lowered count).sp
  emulation : next.registers.emulation = core.registers.emulation
  peek : ∀ i < held, next.peek (i + count) = core.peek i

/-- A number of bytes have been taken off, and those that were held below are on top. -/
structure Raises (held count : Nat) (core next : Core) : Prop where
  sp : next.registers.sp = (core.registers.raised count).sp
  emulation : next.registers.emulation = core.registers.emulation
  peek : ∀ i < held, next.peek i = core.peek (i + count)

/-- A stack pointer that is where its mode has it. -/
def Wrapped (core : Core) : Prop :=
  core.registers.wrapStack core.registers.sp = core.registers.sp

variable {held count : Nat} {core inner back next last : Core}

/-- What nothing happens to keeps its stack. -/
theorem Keeps.refl (held : Nat) (core : Core) : core.Keeps held core :=
  ⟨rfl, rfl, fun _ _ => rfl⟩

/-- What is kept twice is kept. -/
theorem Keeps.trans (h : core.Keeps held next) (h' : next.Keeps held last) :
    core.Keeps held last where
  sp := h'.sp.trans h.sp
  emulation := h'.emulation.trans h.emulation
  peek := fun i bound => (h'.peek i bound).trans (h.peek i bound)

/-- Keeping the pointer and the mode keeps the pointer in its page. -/
theorem Keeps.wrapped (h : core.Keeps held next) (wrapped : core.Wrapped) : next.Wrapped := by
  rw [Wrapped, Registers.wrapStack_sp_congr h.sp h.emulation, h.sp]
  exact wrapped

/-- Where bytes were put on top the pointer is in its page. -/
theorem Lowers.wrapped (h : core.Lowers held count inner) : inner.Wrapped := by
  rw [Wrapped, h.sp, Registers.wrapStack, h.emulation]
  exact core.registers.wrapStack_wrapStack _

/-- A row that is laid on the stack leaves the bytes below it, if there is room for both. -/
theorem Lays.lowers {row : List UInt8} (h : core.Lays next row)
    (fits : held + row.length ≤ core.registers.stackCapacity) :
    core.Lowers held row.length next where
  sp := h.sp
  emulation := h.emulation
  peek := fun i bound => h.under i (by omega)

/-- What was put on the stack and taken off again leaves it as it was. -/
theorem Lowers.keeps (wrapped : core.Wrapped) (lower : core.Lowers held count inner)
    (keep : inner.Keeps (held + count) back) (raise : back.Raises held count next) :
    core.Keeps held next where
  sp := by
    have sp : back.registers.sp = (core.registers.lowered count).sp := keep.sp.trans lower.sp
    have emulation : back.registers.emulation = (core.registers.lowered count).emulation :=
      keep.emulation.trans lower.emulation
    rw [raise.sp, Registers.sp_raised_congr sp emulation, Registers.raised_lowered]
    exact wrapped
  emulation := raise.emulation.trans (keep.emulation.trans lower.emulation)
  peek := fun i bound => by
    rw [raise.peek i bound, keep.peek _ (Nat.add_lt_add_right bound count), lower.peek i bound]

end Core

namespace FrameKind

variable {kind : FrameKind} {r : Registers} {back next : Core}

/-- The stack has room for a frame. -/
theorem fits (kind : FrameKind) (r : Registers) :
    0 + kind.size r.emulation ≤ r.stackCapacity := by
  have size := kind.size_le r.emulation
  have capacity := r.le_stackCapacity
  omega

/-- A return takes its frame off the stack. -/
theorem Returned.raises (h : kind.Returned r back next) (held : Nat) :
    back.Raises held (kind.size r.emulation) next where
  sp := h.sp
  emulation := h.emulation
  peek := fun i _ => by
    obtain ⟨registers, bus⟩ := next
    obtain rfl : bus = back.bus := h.bus
    exact Core.peek_raised h.sp h.emulation i

end FrameKind

namespace Machine

variable {table : DispatchTable} {kind : FrameKind} {machine called back next : Machine}
  {record last : Record} {bound : Bool} {held : Nat}

/-- In native mode the bank is the same, if it is bound to be. -/
def KeepsBank (bound : Bool) (machine next : Machine) : Prop :=
  bound = true → machine.registers.emulation = false → next.registers.pb = machine.registers.pb

/-- A bank that is the same after the call and after what follows is the same. -/
theorem KeepsBank.trans (h : machine.KeepsBank bound called)
    (emulation : called.registers.emulation = machine.registers.emulation)
    (h' : called.KeepsBank bound next) : machine.KeepsBank bound next := fun bind native =>
  (h' bind (emulation.trans native)).trans (h bind native)

/-- A call puts its frame on the stack. -/
theorem Enters.lowers (enters : Enters table kind machine record called)
    (fits : held + kind.size machine.registers.emulation ≤ machine.registers.stackCapacity) :
    machine.core.Lowers held (kind.size machine.registers.emulation) called.core := by
  have length : (kind.frame (machine.registers.advance record.length)).length =
      kind.size machine.registers.emulation := FrameKind.length_frame _ _
  rw [← length] at fits ⊢
  exact enters.lays.lowers fits

/-- The runs whose calls are properly nested, with a number of bytes that are held on the stack and
with a bank that may be bound to stay. -/
inductive Nested (table : DispatchTable) : Bool → Nat → Machine → Machine → Prop where
  | done {bound : Bool} {held : Nat} {machine : Machine} : Nested table bound held machine machine
  /-- Anything that leaves the stack as it is may run between calls. -/
  | code {bound : Bool} {held : Nat} {machine next last : Machine}
      (keeps : machine.core.Keeps held next.core) (bank : machine.KeepsBank bound next)
      (rest : Nested table bound held next last) : Nested table bound held machine last
  /-- A number of bytes are saved while others are called. -/
  | saved {bound : Bool} {held count : Nat} {machine inner back next last : Machine}
      (lowers : machine.core.Lowers held count inner.core) (bank : machine.KeepsBank bound inner)
      (body : Nested table bound (held + count) inner back)
      (raises : back.core.Raises held count next.core) (bank' : back.KeepsBank bound next)
      (rest : Nested table bound held next last) : Nested table bound held machine last
  /-- A call, what it calls, and the return. A frame that holds the bank frees what is called to
  leave it. -/
  | frame {bound : Bool} {held : Nat} {kind : FrameKind} {machine called back last : Machine}
      {record return' : Record} (enters : Enters table kind machine record called)
      (fits : held + kind.size machine.registers.emulation ≤ machine.registers.stackCapacity)
      (body : Nested table (bound && !kind.holdsBank machine.registers.emulation)
        (held + kind.size machine.registers.emulation) called back)
      (leaves : Leaves table kind back return')
      (rest : Nested table bound held (Action.stateAfter (Machine.step table back)) last) :
      Nested table bound held machine last

/-- A machine goes on where a call left it. -/
structure Resumes (machine : Machine) (kind : FrameKind) (record : Record) (next : Machine) :
    Prop where
  pc : next.registers.pc = machine.registers.pc + UInt16.ofNat record.length
  sp : next.registers.sp = machine.registers.sp
  emulation : next.registers.emulation = machine.registers.emulation
  pb : kind.holdsBank machine.registers.emulation = true →
    next.registers.pb = machine.registers.pb
  status : ∀ breakFlag, kind = .interrupt breakFlag →
    next.registers.status = machine.registers.status

/-- If what a call runs keeps the frame and what is held below it, then the return succeeds, and
what is held is on top of the stack again. -/
theorem Enters.exists_returned (enters : Enters table kind machine record called)
    (wrapped : machine.core.Wrapped)
    (fits : held + kind.size machine.registers.emulation ≤ machine.registers.stackCapacity)
    (keeps : called.core.Keeps (held + kind.size machine.registers.emulation) back.core)
    (leaves : Leaves table kind back last) :
    ∃ next, Machine.step table back = .ok last next ∧
      kind.Returned (machine.registers.advance record.length) back.core next.core ∧
      machine.core.Keeps held next.core := by
  obtain ⟨next, stepped, returned⟩ := enters.exists_return leaves keeps.emulation
    fun i inside => keeps.peek i (Nat.lt_add_left held inside)
  exact ⟨next, stepped, returned,
    (enters.lowers fits).keeps wrapped keeps (returned.raises held)⟩

/-- A frame keeps the bank if it holds it, or else if what is called keeps it. -/
theorem Enters.keepsBank (enters : Enters table kind machine record called)
    (bank : called.KeepsBank (bound && !kind.holdsBank machine.registers.emulation) back)
    (returned : kind.Returned (machine.registers.advance record.length) back.core next.core) :
    machine.KeepsBank bound next := by
  intro bind native
  have pb : next.registers.pb = if kind.holdsBank machine.registers.emulation
      then machine.registers.pb else back.registers.pb := returned.pb
  have native' : called.registers.emulation = false := enters.lays.emulation.trans native
  rw [bind, native] at bank
  rw [pb, native]
  cases kind with
  | near => exact (bank rfl native').trans enters.pb_of_near
  | long => rfl
  | interrupt breakFlag => rfl

/-- Nested calls keep the stack, and the bank if it is bound to stay. The induction goes over the
run; what is called by a frame holds the frame on top of what is held already. -/
theorem Nested.keeps (h : Nested table bound held machine next) (wrapped : machine.core.Wrapped) :
    machine.core.Keeps held next.core ∧ machine.KeepsBank bound next := by
  induction h with
  | done => exact ⟨.refl _ _, fun _ _ => rfl⟩
  | code keeps bank _ ih =>
    obtain ⟨keeps', bank'⟩ := ih (keeps.wrapped wrapped)
    exact ⟨keeps.trans keeps', bank.trans keeps.emulation bank'⟩
  | saved lowers bank _ raises bank' _ body rest =>
    obtain ⟨keeps, kept⟩ := body lowers.wrapped
    have around := lowers.keeps wrapped keeps raises
    obtain ⟨keeps', kept'⟩ := rest (around.wrapped wrapped)
    have inside := bank.trans lowers.emulation (kept.trans keeps.emulation bank')
    exact ⟨around.trans keeps', inside.trans around.emulation kept'⟩
  | frame enters fits _ leaves _ body rest =>
    obtain ⟨keeps, kept⟩ := body (enters.lowers fits).wrapped
    obtain ⟨next, stepped, returned, around⟩ := enters.exists_returned wrapped fits keeps leaves
    rw [stepped] at rest
    obtain ⟨keeps', kept'⟩ := rest (around.wrapped wrapped)
    exact ⟨around.trans keeps', (enters.keepsBank kept returned).trans around.emulation kept'⟩

/-- A call resumes when the stack is as it left it. -/
theorem Enters.exists_resumes (enters : Enters table kind machine record called)
    (wf : machine.registers.WellFormed)
    (keeps : called.core.Keeps (kind.size machine.registers.emulation) back.core)
    (leaves : Leaves table kind back last) :
    ∃ next, Machine.step table back = .ok last next ∧
      kind.Returned (machine.registers.advance record.length) back.core next.core ∧
      machine.Resumes kind record next := by
  rw [← Nat.zero_add (kind.size _)] at keeps
  obtain ⟨next, stepped, returned, kept⟩ :=
    enters.exists_returned wf.wrapStack_sp (kind.fits machine.registers) keeps leaves
  refine ⟨next, stepped, returned, ?_⟩
  exact {
    pc := returned.pc
    sp := kept.sp
    emulation := kept.emulation
    pb := fun holds => returned.pb.trans (if_pos holds)
    status := fun breakFlag interrupt => returned.status breakFlag interrupt
      ⟨wf.narrow, wf.accumulator_le, wf.index_le, wf.stack⟩ }

end Machine

/-- A call that succeeds on well-formed registers is resumed by its return. The code in between may
be any that comes back to the stack pointer and the mode it was called with and leaves the frame
alone: the return then succeeds and goes on behind the call, which for an interrupt is behind its
signature, with the stack pointer of the call, with its bank if the frame holds one, and after an
interrupt with its status. The code may also be any run of properly nested calls that fits the
stack, and then the bank is that of the call in native mode. Outside of a call such a run keeps the
stack pointer, the mode and, in native mode, the bank. -/
theorem calls_return {table : DispatchTable} {kind : FrameKind} {machine called back : Machine}
    {record last : Record} (wf : machine.registers.WellFormed)
    (enters : Machine.Enters table kind machine record called)
    (leaves : Machine.Leaves table kind back last) :
    let emulation := machine.registers.emulation
    (table = .standard → record.length = kind.callLength) ∧
      (called.core.Keeps (kind.size emulation) back.core →
        ∃ next, Machine.step table back = .ok last next ∧ machine.Resumes kind record next) ∧
      (Machine.Nested table (!kind.holdsBank emulation) (kind.size emulation) called back →
        ∃ next, Machine.step table back = .ok last next ∧ machine.Resumes kind record next ∧
          (emulation = false → next.registers.pb = machine.registers.pb)) ∧
      ∀ finish, Machine.Nested table true 0 machine finish →
        finish.registers.sp = machine.registers.sp ∧
          finish.registers.emulation = emulation ∧
          (emulation = false → finish.registers.pb = machine.registers.pb) := by
  intro emulation
  refine ⟨?_, fun keeps => ?_, fun nested => ?_, fun finish nested => ?_⟩
  · rintro rfl
    exact enters.length_standard
  · obtain ⟨next, stepped, -, resumes⟩ := enters.exists_resumes wf keeps leaves
    exact ⟨next, stepped, resumes⟩
  · obtain ⟨keeps, bank⟩ := nested.keeps (enters.lowers (kind.fits machine.registers)).wrapped
    obtain ⟨next, stepped, returned, resumes⟩ := enters.exists_resumes wf keeps leaves
    rw [← Bool.true_and (!_)] at bank
    exact ⟨next, stepped, resumes, enters.keepsBank bank returned rfl⟩
  · obtain ⟨keeps, bank⟩ := nested.keeps wf.wrapStack_sp
    exact ⟨keeps.sp, keeps.emulation, bank rfl⟩

/-- A subroutine that does nothing for an instruction and then calls another one, which returns at
once. The outer frame lies around the end of the stack page, and the inner one under it. -/
theorem calls_return_around :
    let registry : Registry :=
      [⟨0x20, .jsr, .absolute⟩, ⟨0x60, .rts, .implied⟩, ⟨0xEA, .nop, .implied⟩]
    let table : DispatchTable :=
      { registry, admissible := ⟨by decide, by decide⟩
        entries := .ofFn fun i => registry.entry (.ofNat i), entries_eq := rfl }
    let view := ((View.whole .least).setAll 0 [0x20, 0x10, 0x00]).setAll 0x10
      [0xEA, 0x20, 0x15, 0x00, 0x60, 0x60]
    let machine : Machine := { core := ⟨{}, .flat view⟩ }
    let called := Action.stateAfter (Machine.step table machine)
    let rested := Action.stateAfter (Machine.step table called)
    let inside := Action.stateAfter (Machine.step table rested)
    let back := Action.stateAfter (Machine.step table inside)
    called.registers.pc = 0x10 ∧ called.registers.sp = 0x1FE ∧
      inside.registers.pc = 0x15 ∧ inside.registers.sp = 0x1FC ∧
      ∃ next, Machine.step table back = .ok ⟨0x14, ⟨0x60, .rts, .implied⟩, {}⟩ next ∧
        next.registers.pc = 3 ∧ next.registers.sp = 0x100 := by
  intro registry table view machine called rested inside back
  let call : Record := ⟨0, ⟨0x20, .jsr, .absolute⟩, { first := 0x10, length := 2 }⟩
  let inner : Record := ⟨0x11, ⟨0x20, .jsr, .absolute⟩, { first := 0x15, length := 2 }⟩
  let leaving (pc : UInt32) : Record := ⟨pc, ⟨0x60, .rts, .implied⟩, {}⟩
  have evaluated : (called.registers.pc = 0x10 ∧ called.registers.sp = 0x1FE ∧
        inside.registers.pc = 0x15 ∧ inside.registers.sp = 0x1FC) ∧
      Action.yields call (Machine.step table machine) = true ∧
      Action.yields inner (Machine.step table rested) = true ∧
      (rested.core.registers.sp = called.core.registers.sp ∧
        rested.core.registers.emulation = called.core.registers.emulation ∧
        rested.registers.pb = called.registers.pb ∧
        ∀ i < 2, rested.core.peek i = called.core.peek i) ∧
      2 + 2 ≤ rested.registers.stackCapacity ∧
      table.decodeAt inside.bus inside.registers.fullPc inside.registers.widths =
        .ok (leaving 0x15) ∧
      table.decodeAt back.bus back.registers.fullPc back.registers.widths = .ok (leaving 0x14) := by
    decide +kernel
  obtain ⟨places, calls, calls', ⟨sp, mode, bank, peek⟩, room, read', read⟩ := evaluated
  have enters : Machine.Enters table .near machine call called :=
    ⟨Action.eq_ok_of_yields calls, rfl⟩
  have enters' : Machine.Enters table .near rested inner inside :=
    ⟨Action.eq_ok_of_yields calls', rfl⟩
  -- There is room for the inner frame under the outer one, which is held on the stack.
  have rests : called.core.Keeps 2 rested.core := ⟨sp, mode, peek⟩
  have leaves' : Machine.Leaves table .near inside (leaving 0x15) := ⟨read', rfl⟩
  have frame : Machine.Nested table true 2 rested back := .frame enters' room .done leaves' .done
  have nested : Machine.Nested table true 2 called back := .code rests (fun _ _ => bank) frame
  have wf : machine.registers.WellFormed := Registers.wellFormed_default
  have leaves : Machine.Leaves table .near back (leaving 0x14) := ⟨read, rfl⟩
  obtain ⟨-, -, resumes, -⟩ := calls_return wf enters leaves
  obtain ⟨next, returns, resumes, -⟩ := resumes nested
  exact ⟨places.1, places.2.1, places.2.2.1, places.2.2.2, next, returns, resumes.pc, resumes.sp⟩

end W65C816
