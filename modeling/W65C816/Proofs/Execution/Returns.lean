import W65C816.Proofs.Execution.Stack
import W65C816.Proofs.Program.Reassembly

/-!
# Calls and returns

A call lays a frame on the stack, and the matching return takes it off and goes on where the call
left: `FrameKind.lays_of_perform` and `FrameKind.exists_returned`. There are three kinds of frames,
of subroutines in the same bank, of subroutines in any bank, and of interrupts, and only the latter
two can hold the bank.

What runs in between may do anything as long as it comes back in the same mode with the frame on
top of the stack: `Machine.Enters.exists_return`.
-/

set_option autoImplicit false

namespace W65C816

/-- What kind of frame a call lays on the stack. The frame of an interrupt shows whether it was a
break. -/
inductive FrameKind where
  | near
  | long
  | interrupt (breakFlag : Bool)
deriving DecidableEq, Repr

/-- The frame that an operation lays on the stack, if it is a call. -/
def Opcode.frame? : Opcode → Option FrameKind
  | .jsr => some .near
  | .jsl => some .long
  | .brk => some (.interrupt true)
  | .cop => some (.interrupt false)
  | _ => none

/-- What is read is the entry of a byte and has its length. -/
theorem DispatchTable.exists_get_of_decodeAt {table : DispatchTable} {bus : Bus}
    {offset : UInt32} {widths : Widths} {record : Record}
    (h : table.decodeAt bus offset widths = .ok record) :
    ∃ code, record.instruction = table.get code ∧
      record.instruction.operandLength widths = .ok record.operands.length := by
  simp only [decodeAt, bind, Except.bind, pure, Except.pure] at h
  split at h
  · cases h
  · split at h
    · cases h
    · next decoded =>
      cases h
      exact ⟨_, rfl, Instruction.operandLength_of_decode decoded⟩

namespace FrameKind

/-- The operation that takes a frame off the stack. -/
def returning : FrameKind → Opcode
  | .near => .rts
  | .long => .rtl
  | .interrupt _ => .rti

/-- The bytes of a frame, the top one first, for the registers with which the call is executed. -/
def frame : FrameKind → Registers → List UInt8
  | .near, r => [Word.low (r.pc - 1), Word.high (r.pc - 1)]
  | .long, r => [Word.low (r.pc - 1), Word.high (r.pc - 1), r.pb]
  | .interrupt breakFlag, r =>
    [{ r with breakFlag : Registers }.statusByte, Word.low r.pc, Word.high r.pc] ++
      if r.emulation then [] else [r.pb]

/-- The number of bytes of a frame. -/
def size : FrameKind → (emulation : Bool) → Nat
  | .near, _ => 2
  | .long, _ => 3
  | .interrupt _, emulation => if emulation then 3 else 4

/-- Whether a frame holds the bank. -/
def holdsBank : FrameKind → (emulation : Bool) → Bool
  | .near, _ => false
  | .long, _ => true
  | .interrupt _, emulation => !emulation

variable {kind : FrameKind} {r : Registers} {core next : Core}

/-- A frame has as many bytes as its kind needs in the mode. -/
theorem length_frame (kind : FrameKind) (r : Registers) :
    (kind.frame r).length = kind.size r.emulation := by
  cases kind with
  | near => rfl
  | long => rfl
  | interrupt breakFlag => cases emulation : r.emulation <;> simp [frame, size, emulation]

/-- A frame is small. -/
theorem size_le (kind : FrameKind) (emulation : Bool) : kind.size emulation ≤ 4 := by
  cases kind <;> cases emulation <;> simp [size]

/-! ## Calls -/

/-- The effect of a call. -/
def entering : FrameKind → Effect
  | .near => .call
  | .long => .callLong
  | .interrupt true => .interrupt true 0xFFFE 0xFFE6
  | .interrupt false => .interrupt false 0xFFF4 0xFFE4

/-- An operation with a frame enters by it in each of its modes. -/
theorem effect_entering {opcode : Opcode} (h : opcode.frame? = some kind) (mode : Addressing.Mode) :
    opcode.effect? mode = some kind.entering := by
  cases opcode <;> cases h <;> rfl

/-- A call lays a near frame on the stack. -/
theorem lays_of_call {mode : Addressing.Mode} {operands : Operands}
    (h : Effect.perform .call mode operands core = .ok () next) :
    core.Lays next (FrameKind.near.frame core.registers) := by
  obtain ⟨address, _, asked, rest⟩ := Action.exists_of_bind_eq_ok h
  obtain ⟨-, rfl⟩ := Exec.ask_eq_ok_iff.mp asked
  obtain ⟨_, _, known, rest⟩ := Action.exists_of_bind_eq_ok rest
  cases known
  obtain ⟨_, pushed, push, go⟩ := Action.exists_of_bind_eq_ok rest
  cases go
  exact (Exec.lays_of_push16 push).2.congr ⟨rfl, rfl, rfl⟩ ⟨rfl, rfl, rfl⟩

/-- A long call lays a long frame on the stack. -/
theorem lays_of_callLong {mode : Addressing.Mode} {operands : Operands}
    (h : Effect.perform .callLong mode operands core = .ok () next) :
    core.Lays next (FrameKind.long.frame core.registers) := by
  obtain ⟨_, _, known, rest⟩ := Action.exists_of_bind_eq_ok h
  cases known
  obtain ⟨_, banked, bank, rest⟩ := Action.exists_of_bind_eq_ok rest
  obtain ⟨_, pushed, push, go⟩ := Action.exists_of_bind_eq_ok rest
  cases go
  have whole := (Exec.lays_of_push8 bank).2.trans (Exec.lays_of_push16 push).2
    (Nat.le_trans (by simp) core.registers.le_stackCapacity)
  exact whole.congr ⟨rfl, rfl, rfl⟩ ⟨rfl, rfl, rfl⟩

/-- The address that an interrupt pushes has the bank below it in native mode. -/
theorem lays_of_push_address {native : Bool} {bank : UInt8} {pc : UInt16} {banked : Core}
    (first : Exec.onlyIf native (Exec.push8 bank) core = .ok () banked)
    (second : Exec.push16 pc banked = .ok () next) :
    (∃ count, next.registers = core.registers.lowered count) ∧
      core.Lays next ([Word.low pc, Word.high pc] ++ if native then [bank] else []) := by
  obtain ⟨lowered, address⟩ := Exec.lays_of_push16 second
  cases native with
  | false =>
    cases first
    exact ⟨⟨2, lowered⟩, address⟩
  | true =>
    obtain ⟨lowered', byte⟩ := Exec.lays_of_push8 first
    rw [lowered', Registers.lowered_lowered] at lowered
    exact ⟨⟨1 + 2, lowered⟩,
      byte.trans address (Nat.le_trans (by simp) core.registers.le_stackCapacity)⟩

/-- In emulation mode the status byte shows the break flag; in native mode it has no place there. -/
theorem statusByte_of_mark {breakFlag : Bool}
    (h : Exec.onlyIf core.registers.emulation
      (Exec.alter fun r => { r with breakFlag }) core = .ok () next) :
    core.SameStack next ∧
      next.registers.statusByte = { core.registers with breakFlag : Registers }.statusByte := by
  cases emulation : core.registers.emulation with
  | false =>
    rw [emulation] at h
    cases h
    refine ⟨⟨rfl, rfl, rfl⟩, ?_⟩
    simp only [Registers.statusByte, emulation, Bool.false_eq_true, if_false]
  | true =>
    rw [emulation] at h
    cases h
    exact ⟨⟨rfl, rfl, rfl⟩, rfl⟩

/-- An interrupt lays its frame on the stack. -/
theorem lays_of_interrupt {breakFlag : Bool} {emulationVector nativeVector : UInt16}
    (h : Effect.performInterrupt breakFlag emulationVector nativeVector core = .ok () next) :
    core.Lays next ((FrameKind.interrupt breakFlag).frame core.registers) := by
  obtain ⟨_, _, known, rest⟩ := Action.exists_of_bind_eq_ok h
  cases known
  obtain ⟨_, banked, bank, rest⟩ := Action.exists_of_bind_eq_ok rest
  obtain ⟨_, pushed, push, rest⟩ := Action.exists_of_bind_eq_ok rest
  obtain ⟨_, marked, mark, rest⟩ := Action.exists_of_bind_eq_ok rest
  obtain ⟨_, _, known, rest⟩ := Action.exists_of_bind_eq_ok rest
  cases known
  obtain ⟨_, saved, save, rest⟩ := Action.exists_of_bind_eq_ok rest
  obtain ⟨_, cleared, clear, rest⟩ := Action.exists_of_bind_eq_ok rest
  cases clear
  obtain ⟨pc, _, vector, go⟩ := Action.exists_of_bind_eq_ok rest
  obtain ⟨-, rfl⟩ := Exec.ask_eq_ok_iff.mp vector
  cases go
  obtain ⟨⟨count, lowered⟩, address⟩ := lays_of_push_address bank push
  rw [← address.emulation] at mark
  obtain ⟨same, byte⟩ := statusByte_of_mark mark
  obtain ⟨-, status⟩ := Exec.lays_of_push8 save
  have byte' : marked.registers.statusByte =
      { core.registers with breakFlag : Registers }.statusByte := by
    rw [byte, lowered]
    rfl
  rw [byte'] at status
  have still : core.SameStack core := ⟨rfl, rfl, rfl⟩
  have whole := (address.congr still same).trans status ?_
  · have frame : (FrameKind.interrupt breakFlag).frame core.registers =
        [{ core.registers with breakFlag : Registers }.statusByte] ++
          ([Word.low core.registers.pc, Word.high core.registers.pc] ++
            if !core.registers.emulation then [core.registers.pb] else []) := by
      cases emulation : core.registers.emulation <;> simp [FrameKind.frame, emulation]
    rw [frame]
    exact whole.congr still ⟨rfl, rfl, rfl⟩
  · refine Nat.le_trans ?_ core.registers.le_stackCapacity
    split <;> simp

/-- A call that succeeds lays its frame on the stack. -/
theorem lays_of_perform {mode : Addressing.Mode} {operands : Operands}
    (h : kind.entering.perform mode operands core = .ok () next) :
    core.Lays next (kind.frame core.registers) := by
  cases kind with
  | near => exact lays_of_call h
  | long => exact lays_of_callLong h
  | interrupt breakFlag => cases breakFlag <;> exact lays_of_interrupt h

/-- A call within the bank leaves it. -/
theorem pb_of_call {mode : Addressing.Mode} {operands : Operands}
    (h : Effect.perform .call mode operands core = .ok () next) :
    next.registers.pb = core.registers.pb := by
  obtain ⟨address, _, asked, rest⟩ := Action.exists_of_bind_eq_ok h
  obtain ⟨-, rfl⟩ := Exec.ask_eq_ok_iff.mp asked
  obtain ⟨_, _, known, rest⟩ := Action.exists_of_bind_eq_ok rest
  cases known
  obtain ⟨_, pushed, push, go⟩ := Action.exists_of_bind_eq_ok rest
  cases go
  change pushed.registers.pb = _
  rw [(Exec.lays_of_push16 push).1]
  rfl

/-- The modes of a call in the standard instruction set. -/
def modes : FrameKind → List Addressing.Mode
  | .near => [.absolute, .absoluteIndexedIndirect]
  | .long => [.absoluteLong]
  | .interrupt _ => [.immediate]

/-- The number of bytes of a call in the standard instruction set. An interrupt has a byte for its
signature. -/
def callLength : FrameKind → Nat
  | .near => 3
  | .long => 4
  | .interrupt _ => 2

/-- A call is as long as its kind has it. -/
theorem operandLength_of_mem_modes {instruction : Instruction}
    (opcode : instruction.opcode.frame? = some kind) (member : instruction.mode ∈ kind.modes)
    (widths : Widths) : instruction.operandLength widths = .ok (kind.callLength - 1) := by
  obtain ⟨code, operation, mode⟩ := instruction
  cases operation <;> cases opcode <;>
    simp only [modes, List.mem_cons, List.not_mem_nil, or_false] at member
  -- a subroutine in the same bank has two modes, the other calls have one
  case jsr.refl => rcases member with rfl | rfl <;> rfl
  all_goals
    subst member
    rfl

/-- The standard encodings of calls are in the modes of their kinds. -/
theorem mem_modes_of_encoding {opcode : Opcode} {mode : Addressing.Mode}
    (member : (opcode, mode) ∈ standardEncodings) (frame : opcode.frame? = some kind) :
    mode ∈ kind.modes := by
  have all : ∀ encoding ∈ standardEncodings,
      encoding.1.frame?.all (encoding.2 ∈ FrameKind.modes ·) = true := by
    decide +kernel
  have here := all _ member
  rw [frame] at here
  exact of_decide_eq_true here

/-! ## Returns -/

/-- The effect of a return. -/
def leaving : FrameKind → Effect
  | .near => .returnNear
  | .long => .returnLong
  | .interrupt _ => .returnFromInterrupt

/-- The operation that returns leaves by the frame in each mode. -/
theorem effect_leaving (kind : FrameKind) (mode : Addressing.Mode) :
    kind.returning.effect? mode = some kind.leaving := by
  cases kind <;> rfl

/-- What a return makes of a core whose stack holds the frame that was laid for some registers. -/
structure Returned (kind : FrameKind) (r : Registers) (core next : Core) : Prop where
  pc : next.registers.pc = r.pc
  sp : next.registers.sp = (core.registers.raised (kind.size r.emulation)).sp
  emulation : next.registers.emulation = core.registers.emulation
  bus : next.bus = core.bus
  pb : next.registers.pb = if kind.holdsBank r.emulation then r.pb else core.registers.pb
  status : ∀ breakFlag, kind = .interrupt breakFlag → r.WellFormed →
    next.registers.status = r.status

/-- The address that a call pushes is the last one of its own. -/
theorem join_pred_add_one (pc : UInt16) :
    Word.join (Word.high (pc - 1)) (Word.low (pc - 1)) + 1 = pc := by
  rw [Word.join_high_low, UInt16.sub_add_cancel]

/-- A near return finds its way back by the near frame. -/
theorem returned_near (low : core.peek 0 = .ok (Word.low (r.pc - 1)))
    (high : core.peek 1 = .ok (Word.high (r.pc - 1))) (mode : Addressing.Mode)
    (operands : Operands) :
    ∃ next, Effect.perform .returnNear mode operands core = .ok () next ∧
      FrameKind.near.Returned r core next := by
  have address := Exec.pull16_of_peek low high
  refine ⟨⟨{ core.registers.raised 2 with pc := r.pc }, core.bus⟩, ?_,
    rfl, rfl, rfl, rfl, rfl, nofun⟩
  simp only [Effect.perform]
  rw [Action.bind_of_ok address, Exec.alter_apply, join_pred_add_one]

/-- A long return finds its way back by the long frame. -/
theorem returned_long (low : core.peek 0 = .ok (Word.low (r.pc - 1)))
    (high : core.peek 1 = .ok (Word.high (r.pc - 1))) (bank : core.peek 2 = .ok r.pb)
    (mode : Addressing.Mode) (operands : Operands) :
    ∃ next, Effect.perform .returnLong mode operands core = .ok () next ∧
      FrameKind.long.Returned r core next := by
  have address := Exec.pull16_of_peek low high
  have top : Core.peek ⟨{ core.registers.raised 2 with pc := r.pc }, core.bus⟩ 0 = .ok r.pb :=
    (Core.peek_raised rfl rfl 0).trans bank
  refine ⟨⟨{ core.registers.raised 3 with pc := r.pc, pb := r.pb }, core.bus⟩, ?_,
    rfl, rfl, rfl, rfl, rfl, nofun⟩
  have raised : { core.registers.raised 2 with pc := r.pc : Registers }.raised 1 =
      { core.registers.raised 3 with pc := r.pc : Registers } := by
    rw [← core.registers.raised_raised 2 1]
    rfl
  simp only [Effect.perform]
  rw [Action.bind_of_ok address, Action.bind_of_ok (Exec.alter_apply _ _), join_pred_add_one,
    Action.bind_of_ok (Exec.pull8_of_peek top), Exec.alter_apply]
  simp only [raised]

/-- Restoring the status leaves the stack and the bank alone. -/
theorem kept_setStatusByte (r : Registers) (value : UInt8) :
    (r.setStatusByte value).sp = r.sp ∧ (r.setStatusByte value).emulation = r.emulation ∧
      (r.setStatusByte value).pb = r.pb := by
  unfold Registers.setStatusByte
  split <;> exact ⟨rfl, rfl, rfl⟩

/-- The status that was pushed is restored as it was. In emulation mode the byte has something else
in the place of the widths, which are known to be narrow. -/
theorem status_setStatusByte {s : Registers} (wf : r.WellFormed)
    (emulation : s.emulation = r.emulation) (breakFlag : Bool) :
    (s.setStatusByte { r with breakFlag : Registers }.statusByte).status = r.status := by
  cases mode : r.emulation with
  | true =>
    obtain ⟨memory, index⟩ := wf.narrow mode
    rw [mode] at emulation
    simp only [Registers.setStatusByte, Registers.statusByte, emulation, if_true,
      Flags.ofByte_toByte, Registers.applyIndexWidth]
    exact Registers.withNarrowWidths_of_narrow memory index
  | false =>
    rw [mode] at emulation
    simp only [Registers.setStatusByte, Registers.statusByte, emulation, Bool.false_eq_true,
      if_false, Flags.ofByte_toByte, Registers.applyIndexWidth]

/-- A return from an interrupt finds its way back by the frame of an interrupt, if the mode is the
same. -/
theorem returned_interrupt {breakFlag : Bool}
    (status : core.peek 0 = .ok { r with breakFlag : Registers }.statusByte)
    (low : core.peek 1 = .ok (Word.low r.pc)) (high : core.peek 2 = .ok (Word.high r.pc))
    (bank : r.emulation = false → core.peek 3 = .ok r.pb)
    (same : core.registers.emulation = r.emulation) (mode : Addressing.Mode)
    (operands : Operands) :
    ∃ next, Effect.perform .returnFromInterrupt mode operands core = .ok () next ∧
      (FrameKind.interrupt breakFlag).Returned r core next := by
  let restored := (core.registers.raised 1).setStatusByte
    { r with breakFlag : Registers }.statusByte
  obtain ⟨sp, emulation, pb⟩ : restored.sp = (core.registers.raised 1).sp ∧
      restored.emulation = core.registers.emulation ∧ restored.pb = core.registers.pb :=
    kept_setStatusByte _ _
  have address := Exec.pull16_of_peek ((Core.peek_raised sp emulation 0).trans low)
    ((Core.peek_raised sp emulation 1).trans high)
  have sp' : (restored.raised 2).sp = (core.registers.raised 3).sp := by
    rw [Registers.sp_raised_congr sp emulation, Registers.raised_raised]
  have status' : ∀ flag, FrameKind.interrupt breakFlag = .interrupt flag → r.WellFormed →
      restored.status = r.status := fun _ _ wf =>
    status_setStatusByte (s := core.registers.raised 1) wf same breakFlag
  simp only [Effect.perform, Effect.performReturnFromInterrupt]
  rw [Action.bind_of_ok (Exec.pull8_of_peek status), Action.bind_of_ok (Exec.alter_apply _ _),
    Action.bind_of_ok address, Action.bind_of_ok (Exec.alter_apply _ _),
    Action.bind_of_ok (Exec.registers_apply _), Word.join_high_low]
  cases native : r.emulation with
  | true =>
    refine ⟨⟨{ restored.raised 2 with pc := r.pc }, core.bus⟩, ?_, rfl, ?_, emulation, rfl, ?_,
      status'⟩
    · have still : (restored.raised 2).emulation = true := emulation.trans (same.trans native)
      simp only [Exec.onlyIf, still]
      rfl
    · rw [native]
      exact sp'
    · rw [native]
      exact pb
  | false =>
    have still : (restored.raised 2).emulation = false := emulation.trans (same.trans native)
    have top : Core.peek ⟨{ restored.raised 2 with pc := r.pc }, core.bus⟩ 0 = .ok r.pb :=
      (Core.peek_raised sp' emulation 0).trans (bank native)
    refine ⟨⟨{ { restored.raised 2 with pc := r.pc : Registers }.raised 1 with pb := r.pb },
      core.bus⟩, ?_, rfl, ?_, emulation, rfl, ?_, status'⟩
    · have wide : (!(restored.raised 2).emulation) = true := by rw [still]; rfl
      rw [Exec.onlyIf, if_pos wide]
      exact Action.bind_of_ok (Exec.pull8_of_peek top)
    · rw [native]
      have raised := Registers.sp_raised_congr
        (s := { restored.raised 2 with pc := r.pc : Registers }) sp' emulation 1
      rw [Registers.raised_raised] at raised
      exact raised
    · rw [native]
      rfl

/-- A return that finds the frame on the stack takes it off. -/
theorem exists_returned (same : core.registers.emulation = r.emulation)
    (top : ∀ i (h : i < (kind.frame r).length), core.peek i = .ok (kind.frame r)[i])
    (mode : Addressing.Mode) (operands : Operands) :
    ∃ next, kind.leaving.perform mode operands core = .ok () next ∧ kind.Returned r core next := by
  cases kind with
  | near => exact returned_near (top 0 (by simp [frame])) (top 1 (by simp [frame])) mode operands
  | long =>
    exact returned_long (top 0 (by simp [frame])) (top 1 (by simp [frame]))
      (top 2 (by simp [frame])) mode operands
  | interrupt breakFlag =>
    refine returned_interrupt (top 0 (by simp [frame])) (top 1 (by simp [frame]))
      (top 2 (by simp [frame])) (fun native => ?_) same mode operands
    have bank := top 3 (by simp [frame, native])
    simpa [frame, native] using bank

end FrameKind

/-! ## Steps -/

namespace Machine

variable {table : DispatchTable} {kind : FrameKind} {machine called back next : Machine}
  {record last : Record}

/-- A step that succeeds and is a call. -/
structure Enters (table : DispatchTable) (kind : FrameKind) (machine : Machine) (record : Record)
    (called : Machine) : Prop where
  step : step table machine = .ok record called
  opcode : record.instruction.opcode.frame? = some kind

/-- A machine that is about to return. -/
structure Leaves (table : DispatchTable) (kind : FrameKind) (machine : Machine) (record : Record) :
    Prop where
  read : table.decodeAt machine.bus machine.registers.fullPc machine.registers.widths = .ok record
  opcode : record.instruction.opcode = kind.returning

/-- A call is carried out behind its own instruction. -/
theorem Enters.exists_perform (h : Enters table kind machine record called) :
    ∃ core, kind.entering.perform record.instruction.mode record.operands
        ⟨machine.registers.advance record.length, machine.bus⟩ = .ok () core ∧
      called.registers = countedRegisters core.registers ∧ called.bus = core.bus := by
  have opcode : record.instruction.opcode ≠ .wdm := by
    intro wdm
    have frame := h.opcode
    rw [wdm] at frame
    cases frame
  obtain ⟨-, core, executed, registers, bus⟩ := exists_execute_of_step opcode h.step
  rw [Instruction.execute, FrameKind.effect_entering h.opcode] at executed
  exact ⟨core, executed, registers, bus⟩

/-- In the standard instruction set a call has the length of its kind. -/
theorem Enters.length_standard (h : Enters .standard kind machine record called) :
    record.length = kind.callLength := by
  obtain ⟨read, -⟩ := exists_executed_of_step h.step
  obtain ⟨code, entry, length⟩ := DispatchTable.exists_get_of_decodeAt read
  have encoding := DispatchTable.encoding_mem_standard code
  rw [← entry] at encoding
  have modes := FrameKind.mem_modes_of_encoding encoding h.opcode
  rw [FrameKind.operandLength_of_mem_modes h.opcode modes] at length
  have same : kind.callLength - 1 = record.operands.length := Except.ok.inj length
  rw [Record.length, ← same]
  cases kind <;> rfl

/-- A step that is a call lays its frame on the stack. -/
theorem Enters.lays (h : Enters table kind machine record called) :
    machine.core.Lays called.core (kind.frame (machine.registers.advance record.length)) := by
  obtain ⟨core, performed, registers, bus⟩ := h.exists_perform
  refine (FrameKind.lays_of_perform performed).congr ⟨rfl, rfl, rfl⟩ ⟨?_, ?_, bus⟩
  · change called.registers.sp = core.registers.sp
    rw [registers]
    rfl
  · change called.registers.emulation = core.registers.emulation
    rw [registers]
    rfl

/-- A near call stays in the program bank. -/
theorem Enters.pb_of_near (h : Enters table .near machine record called) :
    called.registers.pb = machine.registers.pb := by
  obtain ⟨core, performed, registers, -⟩ := h.exists_perform
  have kept := FrameKind.pb_of_call performed
  rw [registers]
  exact kept

/-- A return that finds the frame on the stack succeeds. -/
theorem Leaves.exists_step (h : Leaves table kind back last) {r : Registers}
    (same : back.registers.emulation = r.emulation)
    (top : ∀ i (h : i < (kind.frame r).length), back.core.peek i = .ok (kind.frame r)[i]) :
    ∃ next, step table back = .ok last next ∧ kind.Returned r back.core next.core := by
  have opcode : last.instruction.opcode ≠ .wdm := by
    rw [h.opcode]
    cases kind <;> nofun
  let behind : Core := ⟨back.registers.advance last.length, back.bus⟩
  have same' : behind.registers.emulation = r.emulation := same
  obtain ⟨core, performed, returned⟩ := FrameKind.exists_returned same' top
    last.instruction.mode last.operands
  have executed : last.instruction.execute last.operands behind = .ok () core := by
    rw [Instruction.execute, h.opcode, FrameKind.effect_leaving]
    exact performed
  obtain ⟨next, stepped, registers, bus⟩ := exists_step_of_execute opcode h.read executed
  have counted : next.core.registers = countedRegisters core.registers := registers
  refine ⟨next, stepped, ?_⟩
  exact {
    pc := by rw [counted]; exact returned.pc
    sp := by rw [counted]; exact returned.sp
    emulation := by rw [counted]; exact returned.emulation
    bus := bus.trans returned.bus
    pb := by rw [counted]; exact returned.pb
    status := fun breakFlag interrupt wf => by
      rw [counted]
      exact returned.status breakFlag interrupt wf }

/-- If what runs in between comes back in the mode that it was called in, with the frame on top of
the stack, then the return succeeds. -/
theorem Enters.exists_return (enters : Enters table kind machine record called)
    (leaves : Leaves table kind back last)
    (emulation : back.registers.emulation = called.registers.emulation)
    (frame : ∀ i < kind.size machine.registers.emulation,
      back.core.peek i = called.core.peek i) :
    ∃ next, Machine.step table back = .ok last next ∧
      kind.Returned (machine.registers.advance record.length) back.core next.core := by
  have lays := enters.lays
  refine leaves.exists_step (emulation.trans lays.emulation) fun i bound => ?_
  have inside : i < kind.size machine.registers.emulation := by
    rw [FrameKind.length_frame] at bound
    exact bound
  rw [frame i inside]
  exact lays.top i bound

end Machine

end W65C816
