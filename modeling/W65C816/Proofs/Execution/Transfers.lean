import W65C816.Proofs.Execution.Pushing

/-!
# Control transfers that fail

Returns, calls and interrupts access the stack several times, and an interrupt also reads a vector.
Where one of these accesses fails, `RTS`, `JSR` and `JSL` have moved the stack pointer alone, since
they go elsewhere only when all is pushed or pulled. The others change the program counter, the bank
or the status in between. `Core.FailsInPlace` says for each of them when that does not show: in
terms of the bytes that are on the stack and of the room that it has.
`Instruction.failsInPlace_iff` is the account of all of them. Beside the registers, a failed
transfer has changed at most the bytes of the stack that it was about to push.
-/

set_option autoImplicit false

namespace W65C816

open Addressing

namespace Registers

/-- A change of the program counter is seen beside the stack pointer. -/
theorem onlyStack_pc_iff (r : Registers) (sp pc : UInt16) :
    r.OnlyStack { r with sp, pc } ↔ pc = r.pc := by
  constructor
  · exact congrArg Registers.pc
  · rintro rfl
    rfl

/-- A change of the break flag is seen beside the stack pointer. -/
theorem onlyStack_breakFlag_iff (r : Registers) (sp : UInt16) (breakFlag : Bool) :
    r.OnlyStack { r with sp, breakFlag } ↔ r.breakFlag = breakFlag := by
  constructor
  · exact fun h => (congrArg Registers.breakFlag h).symm
  · rintro rfl
    rfl

/-- What an interrupt changes before it reads its vector. -/
theorem onlyStack_interrupted_iff (r : Registers) (sp : UInt16) (breakFlag : Bool) :
    r.OnlyStack { r with
        sp, breakFlag, pb := 0
        status := { r.status with interruptDisable := true, decimal := false } } ↔
      r.breakFlag = breakFlag ∧ r.pb = 0 ∧ r.status.interruptDisable = true ∧
        r.status.decimal = false := by
  obtain ⟨a, b, x, y, sp', dp, db, pb, pc, ⟨carry, zero, interruptDisable, decimal, index8,
    memory8, overflow, negative⟩, emulation, breakFlag', waiting, stopped, instructions⟩ := r
  simp [OnlyStack, eq_comm, and_comm, and_assoc]

/-- Restoring the status leaves the stack pointer, the program counter and the mode alone. -/
theorem setStatusByte_eq (r : Registers) (value : UInt8) :
    r.setStatusByte value =
      { r.setStatusByte value with sp := r.sp, pc := r.pc, emulation := r.emulation } := by
  unfold setStatusByte
  split <;> rfl

/-- A status that was restored is seen beside the stack pointer, unless it was the same. -/
theorem onlyStack_restored_iff (r : Registers) (value : UInt8) (sp pc : UInt16) :
    r.OnlyStack { r.setStatusByte value with sp, pc } ↔
      r.setStatusByte value = r ∧ pc = r.pc := by
  constructor
  · intro h
    have back := congrArg
      (fun s => { s with sp := r.sp, pc := r.pc, emulation := r.emulation : Registers }) h
    exact ⟨(r.setStatusByte_eq value).trans back, congrArg Registers.pc h⟩
  · rintro ⟨h, rfl⟩
    rw [h]
    rfl

/-- The registers after the status was pulled. -/
def restored (r : Registers) (status : UInt8) : Registers :=
  (r.raised 1).setStatusByte status

/-- Restoring the status raises the pointer by the byte that was pulled. -/
theorem restored_eq (r : Registers) (status : UInt8) :
    r.restored status = { r.setStatusByte status with sp := (r.raised 1).sp } := by
  obtain ⟨_, _, _, _, _, _, _, _, _, _, emulation, _, _, _, _⟩ := r
  cases emulation <;> rfl

end Registers

namespace Core

/-- The number of bytes of the address that an interrupt saves. -/
def addressBytes (core : Core) : Nat :=
  if core.registers.emulation then 2 else 3

/-- An interrupt pushes fewer than four bytes of its address. -/
theorem addressBytes_lt (core : Core) : core.addressBytes < 4 := by
  unfold addressBytes
  split <;> decide

/-- An interrupt that fails leaves the registers as they were but for the stack pointer: in
emulation mode it sets the break flag when the address is saved, and in either mode the flags and
the bank when the status is saved behind it, before it reads the vector. -/
def InterruptsInPlace (core : Core) (breakFlag : Bool) : Prop :=
  (core.registers.emulation = true → core.Room core.addressBytes →
      core.registers.breakFlag = breakFlag) ∧
    (core.Room (core.addressBytes + 1) → core.registers.pb = 0 ∧
      core.registers.status.interruptDisable = true ∧ core.registers.status.decimal = false)

/-- A transfer that fails leaves the registers as they were but for the stack pointer. A long return
has changed the program counter before it pulls the bank, unless the two are the same. A return from
an interrupt has restored the status before it pulls the address, and in native mode the program
counter before it pulls the bank. -/
def FailsInPlace (core : Core) : Opcode → Prop
  | .rtl =>
    ∀ low high, core.peek 0 = .ok low → core.peek 1 = .ok high →
      Word.join high low + 1 = core.registers.pc
  | .rti =>
    ∀ status, core.peek 0 = .ok status →
      core.registers.setStatusByte status = core.registers ∧
        ∀ low high, core.peek 1 = .ok low → core.peek 2 = .ok high →
          Word.join high low = core.registers.pc
  | .brk => core.InterruptsInPlace true
  | .cop => core.InterruptsInPlace false
  | _ => True

/-- Below the status lies what is pulled next. -/
theorem peek_restored (core : Core) (status : UInt8) (depth : Nat) :
    Core.peek ⟨core.registers.restored status, core.bus⟩ depth = core.peek (depth + 1) := by
  have emulation : (core.registers.setStatusByte status).emulation = core.registers.emulation := by
    rw [Registers.setStatusByte_eq]
  rw [core.registers.restored_eq]
  exact @Core.peek_raised core
    { core.registers.setStatusByte status with sp := (core.registers.raised 1).sp } 1 rfl
    emulation depth

/-- At most four bytes were pushed, and beside the stack pointer the registers are as they were
exactly under a condition. -/
structure Leaves (core : Core) (condition : Prop) (next : Core) : Prop where
  memory : ∃ count ≤ 4, core.bus.ChangesAt (core.registers.pushedPositions count) next.bus
  registers : core.registers.OnlyStack next.registers ↔ condition

end Core

namespace Effect

open W65C816.Core Exec

variable {core next : Core} {fault : Fault} {mode : Mode} {operands : Operands}

/-- Where the bus is as it was, it is a matter of the registers. -/
theorem leaves_of_registers {r : Registers} {condition : Prop}
    (registers : core.registers.OnlyStack r ↔ condition) : core.Leaves condition ⟨r, core.bus⟩ where
  memory := ⟨0, by decide, Bus.changesAt_refl core.bus⟩
  registers := registers

/-- What fails on a condition fails. -/
theorem eq_error_of_onlyIf {condition : Bool} {action : Exec Unit}
    (h : onlyIf condition action core = .error fault next) : action core = .error fault next := by
  cases condition with
  | false => cases h
  | true => exact h

/-- Where nothing comes behind the pushes but a change of the registers, that is not come to. -/
theorem leaves_of_pushing {count : Nat} {action : Exec Unit} {change : Registers → Registers}
    (pushing : Pushing count action) (few : count ≤ 4)
    (failed : (action >>= fun _ => alter change) core = .error fault next) :
    core.Leaves True next := by
  rcases Action.bind_eq_error_iff.mp failed with pushes | ⟨_, middle, -, done⟩
  · obtain ⟨only, -, some, fewer, pushed⟩ := pushing.of_error pushes
    have most : some ≤ 4 := Nat.le_trans (Nat.le_of_lt fewer) few
    exact ⟨⟨some, most, pushed.changes⟩, iff_of_true only trivial⟩
  · cases done

/-- A call that fails leaves everything but the stack. -/
theorem leaves_call (failed : Effect.call.perform mode operands core = .error fault next) :
    core.Leaves True next := by
  rcases Action.bind_eq_error_iff.mp failed with asked | ⟨address, middle, asked, rest⟩
  · obtain rfl := Action.atomic_look _ core asked
    exact leaves_of_registers (iff_of_true (Registers.onlyStack_refl _) trivial)
  · obtain ⟨-, rfl⟩ := ask_eq_ok_iff.mp asked
    exact leaves_of_pushing (pushing_push16 _) (by decide) rest

/-- A long call that fails leaves everything but the stack. -/
theorem leaves_callLong (failed : Effect.callLong.perform mode operands core = .error fault next) :
    core.Leaves True next := by
  change (push8 core.registers.pb >>= fun _ => push16 (core.registers.pc - 1) >>= fun _ =>
    alter fun r => r.jumpTo operands.first) core = .error fault next at failed
  rw [← bind_assoc] at failed
  exact leaves_of_pushing ((pushing_push8 _).bind (pushing_push16 _)) (by decide) failed

/-- A return that fails leaves everything but the stack. -/
theorem leaves_returnNear
    (failed : Effect.returnNear.perform mode operands core = .error fault next) :
    core.Leaves True next := by
  rcases Action.bind_eq_error_iff.mp failed with pulls | ⟨pc, middle, -, done⟩
  · obtain ⟨⟨count, rfl⟩, -⟩ := exists_of_pull16_error pulls
    exact leaves_of_registers (iff_of_true (Registers.onlyStack_raised _ count) trivial)
  · cases done

/-- A long return that fails at the bank has set the program counter already, so it leaves
everything else only if it returns to where it is. -/
theorem leaves_returnLong
    (failed : Effect.returnLong.perform mode operands core = .error fault next) :
    core.Leaves (core.FailsInPlace .rtl) next := by
  rcases Action.bind_eq_error_iff.mp failed with pulls | ⟨pc, middle, pulls, rest⟩
  · obtain ⟨⟨count, rfl⟩, short⟩ := exists_of_pull16_error pulls
    refine leaves_of_registers (iff_of_true (Registers.onlyStack_raised _ count) ?_)
    exact fun low high first second => absurd second (short low high first)
  · obtain ⟨low, high, first, second, rfl, rfl⟩ := pull16_eq_ok_iff.mp pulls
    rcases Action.bind_eq_error_iff.mp rest with altered | ⟨_, _, altered, bank⟩
    · cases altered
    · cases altered
      rcases Action.bind_eq_error_iff.mp bank with bank | ⟨_, _, -, done⟩
      · obtain rfl := eq_of_pull8_error bank
        refine leaves_of_registers ((Registers.onlyStack_pc_iff _ _ _).trans ?_)
        simp [FailsInPlace, first, second]
      · cases done

/-- The status is restored, and then the address is pulled, and in native mode the bank. -/
theorem leaves_returnFromInterrupt
    (failed : Effect.returnFromInterrupt.perform mode operands core = .error fault next) :
    core.Leaves (core.FailsInPlace .rti) next := by
  rcases Action.bind_eq_error_iff.mp failed with pulls | ⟨status, middle, pulls, rest⟩
  · have missing := pull8_apply core
    rw [pulls] at missing
    obtain rfl := eq_of_pull8_error pulls
    refine leaves_of_registers (iff_of_true (Registers.onlyStack_raised _ 1) fun status first => ?_)
    rw [first] at missing
    cases missing
  · obtain ⟨first, rfl⟩ := pull8_eq_ok_iff.mp pulls
    rw [Action.bind_of_ok (alter_apply _ _)] at rest
    change (pull16 >>= _) ⟨core.registers.restored status, core.bus⟩ = _ at rest
    rcases Action.bind_eq_error_iff.mp rest with pulls | ⟨pc, middle, pulls, rest⟩
    · obtain ⟨⟨count, rfl⟩, short⟩ := exists_of_pull16_error pulls
      simp only [peek_restored] at short
      rw [core.registers.restored_eq]
      refine leaves_of_registers ((Registers.onlyStack_restored_iff _ status _ _).trans ?_)
      have kept : (core.registers.setStatusByte status).pc = core.registers.pc := by
        rw [Registers.setStatusByte_eq]
      have absent (low high : UInt8) (second : core.peek 1 = .ok low)
          (third : core.peek 2 = .ok high) : Word.join high low = core.registers.pc :=
        absurd third (short low high second)
      simp only [FailsInPlace, first, Except.ok.injEq, forall_eq', kept, and_true]
      exact (and_iff_left absent).symm
    · obtain ⟨low, high, second, third, rfl, rfl⟩ := pull16_eq_ok_iff.mp pulls
      rw [peek_restored] at second third
      rw [Action.bind_of_ok (alter_apply _ _), Action.bind_of_ok (registers_apply _)] at rest
      rcases Action.bind_eq_error_iff.mp (eq_error_of_onlyIf rest) with bank | ⟨_, _, -, done⟩
      · obtain rfl := eq_of_pull8_error bank
        rw [core.registers.restored_eq]
        refine leaves_of_registers ((Registers.onlyStack_restored_iff _ status _ _).trans ?_)
        simp [FailsInPlace, first, second, third]
      · cases done

/-- The address of an interrupt is pushed byte by byte. -/
theorem pushing_address (core : Core) :
    Pushing core.addressBytes
      (onlyIf (!core.registers.emulation) (push8 core.registers.pb) >>= fun _ =>
        push16 core.registers.pc) := by
  have count : core.addressBytes = (if !core.registers.emulation then 1 else 0) + 2 := by
    rw [addressBytes]
    cases core.registers.emulation <;> rfl
  rw [count]
  exact (pushing_onlyIf (pushing_push8 _)).bind (pushing_push16 _)

/-- The address is saved: in emulation mode the break flag is set, and the status is pushed. Behind
that the flags and the bank are set, and the vector is read. -/
theorem leaves_of_saved {breakFlag : Bool} {sp : UInt16} {bus : Bus} {vector : UInt16}
    {status : UInt8}
    (saved : core.Pushes core.addressBytes ⟨{ core.registers with sp }, bus⟩)
    (failed : (push8 status >>= fun _ =>
        alter (fun r => { r with
          pb := 0, status := { r.status with interruptDisable := true, decimal := false } }) >>=
          fun _ => ask (fun _ bus => bus.read16 vector.toUInt32) >>= fun pc =>
            alter fun r => { r with pc })
      ⟨{ core.registers with sp, breakFlag }, bus⟩ = .error fault next) :
    (∃ count ≤ 4, core.bus.ChangesAt (core.registers.pushedPositions count) next.bus) ∧
      (core.registers.OnlyStack next.registers ↔ core.registers.breakFlag = breakFlag ∧
        (core.Room (core.addressBytes + 1) → core.registers.pb = 0 ∧
          core.registers.status.interruptDisable = true ∧
          core.registers.status.decimal = false)) := by
  have pushed : core.Pushes core.addressBytes ⟨{ core.registers with sp, breakFlag }, bus⟩ :=
    saved.congr ⟨rfl, rfl, rfl⟩
  rcases Action.bind_eq_error_iff.mp failed with push | ⟨_, ⟨s, bus'⟩, push, rest⟩
  · obtain ⟨-, full, -⟩ := (pushing_push8 _).of_error push
    obtain rfl := atomic_push8 _ _ push
    have none : ¬ core.Room (core.addressBytes + 1) := fun room =>
      full ((pushed.room_add_iff 1).mp room)
    refine ⟨⟨_, Nat.le_of_lt core.addressBytes_lt, pushed.changes⟩, ?_⟩
    rw [Registers.onlyStack_breakFlag_iff]
    exact (and_iff_left fun room => absurd room none).symm
  · obtain ⟨only, last⟩ := (pushing_push8 _).of_ok push
    obtain ⟨sp', rfl⟩ : ∃ sp', s = { core.registers with sp := sp', breakFlag } := ⟨s.sp, only⟩
    rw [Action.bind_of_ok (alter_apply _ _)] at rest
    rcases Action.bind_eq_error_iff.mp rest with read | ⟨_, _, -, done⟩
    · obtain rfl := Action.atomic_look _ _ read
      have all := pushed.trans last
      refine ⟨⟨_, core.addressBytes_lt, all.changes⟩, ?_⟩
      rw [Registers.onlyStack_interrupted_iff]
      exact and_congr_right fun _ => (imp_iff_right all.room).symm
    · cases done

/-- In emulation mode the break flag becomes what the interrupt has for it, in native mode it
stays. -/
theorem leaves_interrupt {breakFlag : Bool} {emulationVector nativeVector : UInt16}
    (failed : (Effect.interrupt breakFlag emulationVector nativeVector).perform mode operands core =
      .error fault next) :
    core.Leaves (core.InterruptsInPlace breakFlag) next := by
  change (onlyIf (!core.registers.emulation) (push8 core.registers.pb) >>= fun _ =>
    push16 core.registers.pc >>= _) core = _ at failed
  rw [← bind_assoc] at failed
  rcases Action.bind_eq_error_iff.mp failed with pushes | ⟨_, ⟨r, bus⟩, pushes, rest⟩
  · obtain ⟨only, full, some, fewer, pushed⟩ := (pushing_address core).of_error pushes
    have most : some ≤ 4 := Nat.le_of_lt (Nat.lt_trans fewer core.addressBytes_lt)
    refine ⟨⟨some, most, pushed.changes⟩, iff_of_true only ?_⟩
    exact ⟨fun _ room => absurd room full, fun room => absurd room.left full⟩
  · obtain ⟨only, pushed⟩ := (pushing_address core).of_ok pushes
    obtain ⟨sp, rfl⟩ : ∃ sp, r = { core.registers with sp } := ⟨r.sp, only⟩
    have set : onlyIf core.registers.emulation (alter fun r => { r with breakFlag })
        ⟨{ core.registers with sp }, bus⟩ =
        .ok () ⟨{ core.registers with
          sp, breakFlag := if core.registers.emulation then breakFlag
            else core.registers.breakFlag }, bus⟩ := by
      cases core.registers.emulation <;> rfl
    rw [Action.bind_of_ok set, Action.bind_of_ok (registers_apply _)] at rest
    obtain ⟨memory, registers⟩ := leaves_of_saved pushed rest
    refine ⟨memory, registers.trans (and_congr_left fun _ => ?_)⟩
    rw [imp_iff_right pushed.room]
    cases core.registers.emulation <;> simp

end Effect

/-- The operations that go elsewhere by way of the stack. -/
def Opcode.transfers : List Opcode :=
  [.rts, .rtl, .rti, .jsr, .jsl, .brk, .cop]

namespace Instruction

/-- Whatever the registers, the bus and the operands are: a return, a call or an interrupt that
fails has changed at most four bytes, at positions that are pushed to, and it has moved the stack
pointer alone exactly if it fails in place. -/
theorem failsInPlace_iff {opcode : Opcode} (transfer : opcode ∈ Opcode.transfers) (code : UInt8)
    (mode : Mode) (operands : Operands) {core next : Core} {fault : Fault}
    (failed : ({ code, opcode, mode } : Instruction).execute operands core = .error fault next) :
    (∃ count ≤ 4, core.bus.ChangesAt (core.registers.pushedPositions count) next.bus) ∧
      (next.registers = { core.registers with sp := next.registers.sp } ↔
        core.FailsInPlace opcode) := by
  suffices leaves : core.Leaves (core.FailsInPlace opcode) next from
    ⟨leaves.memory, leaves.registers⟩
  have performed (effect : Effect) (found : opcode.effect? mode = some effect) :
      effect.perform mode operands core = .error fault next := by
    simpa only [execute, found] using failed
  simp only [Opcode.transfers, List.mem_cons, List.not_mem_nil, or_false] at transfer
  rcases transfer with rfl | rfl | rfl | rfl | rfl | rfl | rfl
  · exact Effect.leaves_returnNear (performed _ rfl)
  · exact Effect.leaves_returnLong (performed _ rfl)
  · exact Effect.leaves_returnFromInterrupt (performed _ rfl)
  · exact Effect.leaves_call (performed _ rfl)
  · exact Effect.leaves_callLong (performed _ rfl)
  · exact Effect.leaves_interrupt (performed _ rfl)
  · exact Effect.leaves_interrupt (performed _ rfl)

/-- A long return in native mode with the first byte of its address at the end of the memory. -/
theorem failsInPlace_iff_at_end :
    let rtl : Instruction := { code := 0x6B, opcode := .rtl, mode := .implied }
    let core : Core :=
      ⟨{ emulation := false, status := {}, sp := 0x01FE }, .flat (.whole Memory.least)⟩
    ∃ next, rtl.execute {} core = .error (.outOfRange 0x0200 0x0200) next ∧
      next.registers = { core.registers with sp := 0x0200 } := by
  intro rtl core
  obtain ⟨next, failed⟩ : ∃ next, rtl.execute {} core = .error (.outOfRange 0x0200 0x0200) next :=
    ⟨_, Action.eq_error_of_failsWith (by decide +kernel)⟩
  have sp : (Action.stateAfter (rtl.execute {} core)).registers.sp = 0x0200 := by decide +kernel
  have place : core.FailsInPlace .rtl := by
    intro low high _ second
    have missing : (core.peek 1).toBool = false := by decide +kernel
    rw [second] at missing
    cases missing
  have alone := (failsInPlace_iff (by decide) 0x6B .implied {} failed).2.mpr place
  rw [failed, Action.stateAfter_error] at sp
  rw [sp] at alone
  exact ⟨next, failed, alone⟩

/-- With two bytes there, the long return goes to the address before it fails for want of the
bank. -/
theorem not_failsInPlace :
    let rtl : Instruction := { code := 0x6B, opcode := .rtl, mode := .implied }
    let core : Core :=
      ⟨{ emulation := false, status := {}, sp := 0x01FD }, .flat (.whole Memory.least)⟩
    ∃ next, rtl.execute {} core = .error (.outOfRange 0x0200 0x0200) next ∧
      core.registers.pc = 0 ∧ next.registers.pc = 1 := by
  intro rtl core
  obtain ⟨next, failed⟩ : ∃ next, rtl.execute {} core = .error (.outOfRange 0x0200 0x0200) next :=
    ⟨_, Action.eq_error_of_failsWith (by decide +kernel)⟩
  have pc : (Action.stateAfter (rtl.execute {} core)).registers.pc = 1 := by decide +kernel
  rw [failed] at pc
  exact ⟨next, failed, rfl, pc⟩

end Instruction

end W65C816
