import W65C816.Proofs.Execution.InPlace

/-!
# The flags that instructions change

Each operation changes certain flags of the status and no other ones, `Opcode.alteredFlags`. To keep
all others is a frame, and the effects of the operations are within it one by one:
`Registers.keepsFlags_effect?`. The operations that leave a result tell of it in N and Z, at the
width at which the result was produced. `Opcode.outcome?` says where the result is to be found: in a
register, which the effect has set together with the flags, or in memory, where it is read again
after it was written.
-/

set_option autoImplicit false

namespace W65C816

open Addressing

namespace Flags

/-- The flags that tell of a result. -/
def nz : Flags := { negative := true, zero := true }

/-- The flags that tell of a result and of the bit that was shifted out or carried. -/
def nzc : Flags := { negative := true, zero := true, carry := true }

/-- All flags. -/
def all : Flags := ofByte 0xFF

/-- Nothing is left when all flags are cleared. -/
theorem clear_all (flags : Flags) : flags.clear all = {} := by
  have every : all = ⟨true, true, true, true, true, true, true, true⟩ := by decide
  simp [every, clear]

/-- N and Z tell of a value: its highest bit, and whether it is zero. -/
structure Describe (flags : Flags) (width : Width) (value : UInt16) : Prop where
  negative : flags.negative = width.sign value
  zero : flags.zero = (width.narrow value == 0)

end Flags

/-- The flags that an operation may change in a mode. The operands of `REP` and `SEP` select
them. -/
def Opcode.alteredFlags (mode : Mode) (operand : UInt8) : Opcode → Flags
  | .adc | .sbc => { Flags.nzc with overflow := true }
  | .and | .eor | .ora | .inc | .dec | .inx | .iny | .dex | .dey | .lda | .ldx | .ldy => Flags.nz
  | .tax | .tay | .txa | .tya | .txy | .tyx | .tsx | .tsc | .tcd | .tdc | .xba => Flags.nz
  | .pla | .plx | .ply | .plb | .pld => Flags.nz
  | .asl | .lsr | .rol | .ror | .cmp | .cpx | .cpy => Flags.nzc
  | .tsb | .trb => { zero := true }
  | .bit => if mode = .immediate then { zero := true } else { Flags.nz with overflow := true }
  | .brk | .cop => { interruptDisable := true, decimal := true }
  | .clc | .sec => { carry := true }
  | .cld | .sed => { decimal := true }
  | .cli | .sei => { interruptDisable := true }
  | .clv => { overflow := true }
  | .rep | .sep => Flags.ofByte operand
  | .xce => { carry := true, memory8 := true, index8 := true }
  | .plp | .rti => Flags.all
  | .sta | .stx | .sty | .stz => {}
  | .bcc | .bcs | .bne | .beq | .bpl | .bmi | .bvc | .bvs | .bra | .brl => {}
  | .jmp | .jml | .jsr | .jsl | .rts | .rtl => {}
  | .pha | .phx | .phy | .phb | .phd | .phk | .php | .pea | .pei | .per => {}
  | .txs | .tcs | .mvn | .mvp | .nop | .wdm | .stp | .wai | .invalid => {}

/-- Where an operation leaves the result that N and Z tell of. -/
inductive Outcome where
  /-- In the registers, at a width that they determine. -/
  | registers (width : Registers → Width) (value : Registers → UInt16)
  /-- In memory, at the effective address and the width of memory operands. -/
  | operand

/-- Where an operation in a mode leaves its result, if N and Z tell of one. -/
def Opcode.outcome? (mode : Mode) : Opcode → Option Outcome
  | .lda | .and | .eor | .ora | .adc | .sbc | .pla | .txa | .tya =>
    some (.registers Registers.memoryWidth Registers.a)
  | .ldx | .plx | .inx | .dex | .tax | .tyx | .tsx =>
    some (.registers Registers.indexWidth Registers.x)
  | .ldy | .ply | .iny | .dey | .tay | .txy =>
    some (.registers Registers.indexWidth Registers.y)
  | .asl | .lsr | .rol | .ror | .inc | .dec =>
    if mode = .accumulator then some (.registers Registers.memoryWidth Registers.a)
    else some .operand
  | .plb => some (.registers (fun _ => .byte) fun r => r.db.toUInt16)
  | .pld | .tcd => some (.registers (fun _ => .word) Registers.dp)
  | .tsc | .tdc => some (.registers (fun _ => .word) Registers.c)
  | .xba => some (.registers (fun _ => .byte) Registers.c)
  | _ => none

namespace Registers

/-! ## The flags that are kept -/

/-- The status has changed in the selected flags at most. -/
def KeepsFlags (selected : Flags) (r s : Registers) : Prop :=
  s.status.clear selected = r.status.clear selected

/-- The program counter and the bank are no flags. -/
theorem frame_keepsFlags (selected : Flags) : Frame (KeepsFlags selected) where
  refl := fun _ => rfl
  trans := fun h h' => h'.trans h
  stack := fun _ _ => rfl
  program := fun _ _ _ => rfl

/-- With the status, all flags are kept. -/
theorem keepsFlags_of_eq (selected : Flags) {r s : Registers} (same : s.status = r.status) :
    KeepsFlags selected r s :=
  congrArg (Flags.clear · selected) same

/-- Setting N and Z changes N and Z at most. -/
theorem keepsFlags_setNZ {r s : Registers} (width : Width) (value : UInt16)
    (same : s.status = r.status) : KeepsFlags Flags.nz r (s.setNZ width value) := by
  simp [KeepsFlags, setNZ, Flags.clear, Flags.nz, same]

/-- Setting the carry as well changes N, Z and C at most. -/
theorem keepsFlags_setCarry_setNZ (r : Registers) (carry : Bool) (width : Width) (value : UInt16) :
    KeepsFlags Flags.nzc r ((r.setCarry carry).setNZ width value) := by
  simp [KeepsFlags, setCarry, setNZ, Flags.clear, Flags.nzc]

/-- Setting the accumulator keeps the status. -/
theorem status_setC (r : Registers) (value : UInt16) : (r.setC value).status = r.status := by
  rw [setC_eq]

/-- Moving a byte keeps the status. -/
theorem status_afterMove (step : UInt16 → UInt16) (destination : UInt8) (r : Registers) :
    (Effect.afterMove step destination r).status = r.status := by
  unfold Effect.afterMove
  dsimp only
  split <;> exact status_setC _ _

/-- Exchanging carry and emulation changes the carry and the two width flags at most. -/
theorem keepsFlags_exchangeCarryEmulation (r : Registers) :
    KeepsFlags { carry := true, memory8 := true, index8 := true } r r.exchangeCarryEmulation := by
  unfold exchangeCarryEmulation
  split <;> simp [KeepsFlags, enterNative, enterEmulation, setCarry, withNarrowWidths, Flags.clear]

/-- Apart from `REP` and `SEP`, each operation in each addressing mode keeps the flags that it does
not alter. -/
theorem keepsFlags_effect? (mode : Mode) (operand : UInt8) {opcode : Opcode}
    (other : opcode ∉ [Opcode.rep, .sep]) {effect : Effect}
    (h : opcode.effect? mode = some effect) :
    effect.Within (KeepsFlags (opcode.alteredFlags mode operand)) := by
  cases opcode <;> simp only [Opcode.effect?, Option.some.injEq, reduceCtorEq] at h <;> subst h
  case rep | sep => exact absurd (by decide) other
  case adc | sbc =>
    intro r value
    simp [KeepsFlags, add, subtract, loadAccumulator, setAccumulator, setNZ, Flags.clear,
      Opcode.alteredFlags, Flags.nzc]
  case and | eor | ora | lda | ldx | ldy | pla | plx | ply | plb | pld =>
    exact fun r value => keepsFlags_setNZ _ _ rfl
  case inx | iny | dex | dey | tax | tay | txa | tya | txy | tyx | tsx | tcd =>
    exact fun r => keepsFlags_setNZ _ _ rfl
  case tsc | tdc | xba => exact fun r => keepsFlags_setNZ _ _ (status_setC _ _)
  case inc | dec =>
    exact ⟨fun r => keepsFlags_setNZ _ _ rfl, fun r old => keepsFlags_setNZ _ _ rfl⟩
  case asl | lsr | rol | ror =>
    exact ⟨fun r => keepsFlags_setCarry_setNZ _ _ _ _,
      fun r old => keepsFlags_setCarry_setNZ _ _ _ _⟩
  case cmp | cpx | cpy => exact fun r value => keepsFlags_setCarry_setNZ _ _ _ _
  case tsb | trb =>
    have kept (r : Registers) (old : UInt16) : KeepsFlags { zero := true } r (r.testZero old) := by
      simp [KeepsFlags, testZero, Flags.clear]
    exact ⟨fun r => kept r _, kept⟩
  case bit =>
    intro r value
    split <;> simp [KeepsFlags, testZero, testBits, Flags.clear, Opcode.alteredFlags, Flags.nz, *]
  case brk | cop =>
    refine ⟨fun _ => rfl, fun r => ?_⟩
    simp [KeepsFlags, Flags.clear, Opcode.alteredFlags]
  case clc | sec | cld | sed | cli | sei | clv =>
    intro r
    simp [KeepsFlags, Flags.clear, Opcode.alteredFlags]
  case xce => exact keepsFlags_exchangeCarryEmulation
  case plp | rti => exact fun r value => (Flags.clear_all _).trans (Flags.clear_all _).symm
  case mvn | mvp => exact fun r destination => keepsFlags_of_eq _ (status_afterMove _ destination r)
  case jsr | jsl | rts | rtl | sta | stx | sty | stz => trivial
  case pha | phx | phy | phb | phd | phk | php | pea | pei | per => trivial
  case bcc | bcs | bne | beq | bpl | bmi | bvc | bvs | bra | brl | jmp | jml =>
    exact fun _ _ => rfl
  case txs | tcs | nop | wdm | stp | wai => exact fun _ => rfl

/-- Clearing flags by a mask changes those of the mask at most. -/
theorem keepsFlags_clearStatusBits (r : Registers) (mask : UInt8) :
    KeepsFlags (Flags.ofByte mask) r (r.clearStatusBits mask) := by
  unfold KeepsFlags clearStatusBits
  split <;> simp [Flags.clear]

/-- Setting flags by a mask changes those of the mask at most. -/
theorem keepsFlags_setStatusBits (r : Registers) (mask : UInt8) :
    KeepsFlags (Flags.ofByte mask) r (r.setStatusBits mask) := by
  have kept (flag set : Bool) : ((flag || set) && !set) = (flag && !set) := by
    cases set <;> simp
  simp only [KeepsFlags, setStatusBits, applyIndexWidth, Flags.clear, Flags.set, kept]

/-! ## Results in registers -/

/-- N and Z, set from a value, tell of whatever has the same part that counts. -/
theorem describe_setNZ (r : Registers) (width : Width) {value result : UInt16}
    (same : width.narrow result = width.narrow value) :
    (r.setNZ width value).status.Describe width result where
  negative := (Width.sign_congr same).symm
  zero := congrArg (· == 0) same.symm

/-- N and Z tell of what is loaded into the accumulator. -/
theorem describe_loadAccumulator (r : Registers) (value : UInt16) :
    (r.loadAccumulator value).status.Describe (r.loadAccumulator value).memoryWidth
      (r.loadAccumulator value).a :=
  describe_setNZ _ _ (Width.narrow_replace _ _ _)

/-- N and Z tell of what is loaded into X. -/
theorem describe_loadX (r : Registers) (value : UInt16) :
    (r.loadX value).status.Describe (r.loadX value).indexWidth (r.loadX value).x :=
  describe_setNZ _ _ (Width.narrow_narrow _ _)

/-- N and Z tell of what is loaded into Y. -/
theorem describe_loadY (r : Registers) (value : UInt16) :
    (r.loadY value).status.Describe (r.loadY value).indexWidth (r.loadY value).y :=
  describe_setNZ _ _ (Width.narrow_narrow _ _)

/-- An operation that changes its operand in place tells of the result. -/
theorem describe_of_inPlace {opcode : Opcode} (listed : opcode ∈ Opcode.inPlace)
    {result : Registers → UInt16 → UInt16 × Registers}
    (found : ∀ mode, opcode.effect? mode = some (.replace result)) (r : Registers)
    {old shown : UInt16} (same : r.memoryWidth.narrow shown = (result r old).1) :
    (result r old).2.status.Describe r.memoryWidth shown := by
  have here := found .direct
  simp only [Opcode.inPlace, List.mem_cons, List.not_mem_nil, or_false] at listed
  rcases listed with rfl | rfl | rfl | rfl | rfl | rfl <;> cases here <;>
    exact describe_setNZ _ _ (same.trans (Width.narrow_narrow _ _).symm)

/-- In the accumulator the result is told of as well. -/
theorem describe_replaceAccumulator {opcode : Opcode} (listed : opcode ∈ Opcode.inPlace)
    {result : Registers → UInt16 → UInt16 × Registers}
    (found : ∀ mode, opcode.effect? mode = some (.replace result)) (r : Registers) :
    (Effect.replaceAccumulator result r).status.Describe
      (Effect.replaceAccumulator result r).memoryWidth (Effect.replaceAccumulator result r).a := by
  have changes := Opcode.changesInPlace_of_effect? listed found
  have shown := changes.accumulator_replaceAccumulator r
  rw [accumulator, changes.memoryWidth_replaceAccumulator] at shown
  rw [changes.memoryWidth_replaceAccumulator]
  have told := describe_of_inPlace listed found r shown
  rw [changes.replaceAccumulator_eq] at told ⊢
  exact told

end Registers

namespace Effect

/-- In a mode, the effect leaves registers with a property, whatever it is that it reads. -/
def Establishes (mode : Mode) (property : Registers → Prop) : Effect → Prop
  | .registers change => ∀ r, property (change r)
  | .read _ change | .pull _ change => ∀ r value, property (change r value)
  | .replace result => mode = .accumulator ∧ ∀ r, property (replaceAccumulator result r)
  | _ => False

/-- What an effect establishes holds when it is done. -/
theorem Establishes.perform {mode : Mode} {property : Registers → Prop} {effect : Effect}
    (h : effect.Establishes mode property) {operands : Operands} {core next : Core}
    (done : effect.perform mode operands core = .ok () next) : property next.registers := by
  cases effect with
  | registers change =>
    cases done
    exact h core.registers
  | read width change =>
    obtain ⟨_, _, _, last⟩ := Action.exists_of_bind_eq_ok done
    obtain ⟨value, middle, _, last⟩ := Action.exists_of_bind_eq_ok last
    cases last
    exact h middle.registers value
  | pull width change =>
    obtain ⟨_, _, _, last⟩ := Action.exists_of_bind_eq_ok done
    obtain ⟨value, middle, _, last⟩ := Action.exists_of_bind_eq_ok last
    cases last
    exact h middle.registers value
  | replace result =>
    simp only [Effect.perform, if_pos h.1] at done
    cases done
    exact h.2 core.registers
  | _ => exact h.elim

end Effect

namespace Outcome

/-- The width at which a result is produced. -/
def width (r : Registers) : Outcome → Width
  | .registers width _ => width r
  | .operand => r.memoryWidth

/-- The result as it is found when the operation is done. Where it is in memory depends on the core
before. -/
def value (mode : Mode) (operand : UInt32) (before after : Core) : Outcome → Except Fault UInt16
  | .registers _ value => .ok (value after.registers)
  | .operand => do
    let address ← effectiveAddress mode operand before.registers before.bus
    after.bus.readAt before.registers.memoryWidth address

variable {mode : Mode} {opcode : Opcode} {effect : Effect}

/-- A result in a register is told of by the flags that were set with it. -/
theorem establishes_effect? {width : Registers → Width} {value : Registers → UInt16}
    (leaves : opcode.outcome? mode = some (.registers width value))
    (h : opcode.effect? mode = some effect) :
    effect.Establishes mode fun s => s.status.Describe (width s) (value s) := by
  have inPlace (listed : opcode ∈ Opcode.inPlace)
      (here : (if mode = .accumulator then some (registers Registers.memoryWidth Registers.a)
        else some operand) = some (.registers width value)) :
      effect.Establishes mode fun s => s.status.Describe (width s) (value s) := by
    obtain ⟨result, -, found⟩ := opcode.changesInPlace listed
    obtain rfl := Option.some.inj (h.symm.trans (found mode))
    split at here
    · next accumulator =>
      cases here
      exact ⟨accumulator, Registers.describe_replaceAccumulator listed found⟩
    · cases here
  cases opcode <;> simp only [Opcode.outcome?, reduceCtorEq] at leaves
  case asl | lsr | rol | ror | inc | dec => exact inPlace (by decide) leaves
  all_goals
    cases leaves
    cases h
  case lda | and | eor | ora | adc | sbc | pla =>
    exact fun r value => Registers.describe_loadAccumulator _ _
  case txa | tya => exact fun r => Registers.describe_loadAccumulator _ _
  case ldx | plx => exact fun r value => Registers.describe_loadX _ _
  case inx | dex | tax | tyx | tsx => exact fun r => Registers.describe_loadX _ _
  case ldy | ply => exact fun r value => Registers.describe_loadY _ _
  case iny | dey | tay | txy => exact fun r => Registers.describe_loadY _ _
  case plb => exact fun r value => Registers.describe_setNZ _ _ (Width.byte.narrow_narrow value)
  case pld => exact fun r value => Registers.describe_setNZ _ _ rfl
  case tcd => exact fun r => Registers.describe_setNZ _ _ rfl
  case tsc | tdc => exact fun r => Registers.describe_setNZ _ _ (Registers.c_setC _ _)
  case xba =>
    exact fun r => Registers.describe_setNZ _ _
      (congrArg Width.byte.narrow (Registers.c_setC _ _))

/-- What a result counts for depends on the mode and the width flags. -/
theorem width_congr {outcome : Outcome} (leaves : opcode.outcome? mode = some outcome)
    {r s : Registers} (same : Registers.SameMode r s) : outcome.width s = outcome.width r := by
  have memory : s.memoryWidth = r.memoryWidth := congrArg Widths.memory same.widths_eq
  have index : s.indexWidth = r.indexWidth := congrArg Widths.index same.widths_eq
  cases opcode <;> simp only [Opcode.outcome?, reduceCtorEq] at leaves
  case asl | lsr | rol | ror | inc | dec =>
    split at leaves <;> cases leaves <;> exact memory
  all_goals cases leaves
  case ldx | plx | inx | dex | tax | tyx | tsx | ldy | ply | iny | dey | tay | txy => exact index
  case plb | pld | tcd | tsc | tdc | xba => rfl
  all_goals exact memory

/-- Only an operation that changes its operand in place leaves its result there, and then in
memory. -/
theorem eq_replace_of_operand (leaves : opcode.outcome? mode = some .operand) :
    opcode ∈ Opcode.inPlace ∧ mode ≠ .accumulator := by
  have inMemory (here : (if mode = .accumulator then
      some (registers Registers.memoryWidth Registers.a) else some operand) = some .operand) :
      mode ≠ .accumulator := by
    rintro rfl
    cases here
  cases opcode <;> simp only [Opcode.outcome?, Option.some.injEq, reduceCtorEq] at leaves
  case asl | lsr | rol | ror | inc | dec => exact ⟨by decide, inMemory leaves⟩

/-- An operation that leaves a result changes neither the mode nor the widths, and calls no hook. -/
theorem sameMode_of_outcome {outcome : Outcome} (leaves : opcode.outcome? mode = some outcome) :
    (∀ effect, opcode.effect? mode = some effect → effect.Within Registers.SameMode) ∧
      opcode ≠ .wdm := by
  have other : opcode ∉ [Opcode.rep, .sep, .xce, .plp, .rti, .wdm] := by
    intro listed
    simp only [List.mem_cons, List.not_mem_nil, or_false] at listed
    rcases listed with rfl | rfl | rfl | rfl | rfl | rfl <;> cases leaves
  simp only [List.mem_cons, List.not_mem_nil, or_false, not_or] at other
  refine ⟨fun effect found => Registers.sameMode_effect? mode other.1 other.2.1 ?_ found,
    other.2.2.2.2.2⟩
  simp [other]

end Outcome

/-- An instruction that leaves a result has told of it when it is done. -/
theorem Instruction.exists_value_of_execute {instruction : Instruction} {operands : Operands}
    {core next : Core} {outcome : Outcome}
    (leaves : instruction.opcode.outcome? instruction.mode = some outcome)
    (same : Registers.SameMode core.registers next.registers)
    (done : instruction.execute operands core = .ok () next) :
    ∃ value, outcome.value instruction.mode operands.first core next = .ok value ∧
      next.registers.status.Describe (outcome.width core.registers) value := by
  cases found : instruction.opcode.effect? instruction.mode with
  | none =>
    simp only [execute, found] at done
    cases done
  | some effect =>
    simp only [execute, found] at done
    cases outcome with
    | registers width value =>
      have told := (Outcome.establishes_effect? leaves found).perform done
      refine ⟨_, rfl, ?_⟩
      rw [← Outcome.width_congr leaves same]
      exact told
    | operand =>
      obtain ⟨listed, inMemory⟩ := Outcome.eq_replace_of_operand leaves
      obtain ⟨result, changes, replaces⟩ := instruction.opcode.changesInPlace listed
      obtain rfl := Option.some.inj (found.symm.trans (replaces _))
      obtain ⟨address, old, reached, -, registers, written⟩ :=
        Effect.exists_of_perform_replace inMemory done
      refine ⟨core.registers.memoryWidth.narrow (result core.registers old).1, ?_, ?_⟩
      · rw [Outcome.value, reached]
        exact Bus.readAt_of_writeAt written
      · rw [registers]
        refine Registers.describe_of_inPlace listed replaces core.registers ?_
        rw [Width.narrow_narrow, changes.narrow]

namespace Machine

variable {instruction : Instruction} {operands : Operands} {machine next : Machine}

/-- An instruction that is done has changed no flags but those that its operation alters. -/
theorem keepsFlags_of_execute (done : execute instruction operands machine = .ok () next) :
    Registers.KeepsFlags
      (instruction.opcode.alteredFlags instruction.mode (Address.low operands.first))
      machine.registers next.registers := by
  by_cases rep : instruction.opcode = .rep
  · rw [registers_of_execute_operand (by rw [rep]; rfl) done, rep]
    exact Registers.keepsFlags_clearStatusBits _ _
  · by_cases sep : instruction.opcode = .sep
    · rw [registers_of_execute_operand (by rw [sep]; rfl) done, sep]
      exact Registers.keepsFlags_setStatusBits _ _
    · have within := within_execute_of_effect (Registers.frame_keepsFlags _)
        (fun effect found => Registers.keepsFlags_effect? instruction.mode
          (Address.low operands.first) (by simp [rep, sep]) found) operands machine
      rw [done] at within
      exact within

/-- Whatever the registers and the memory are, an instruction that is done has changed no flags of
the status but those that its operation alters; and if the operation leaves a result that N and Z
tell of, then N is its highest bit and Z tells whether it is zero, at the width at which it was
produced. -/
theorem flags_of_execute (done : execute instruction operands machine = .ok () next) :
    Registers.KeepsFlags
        (instruction.opcode.alteredFlags instruction.mode (Address.low operands.first))
        machine.registers next.registers ∧
      ∀ outcome, instruction.opcode.outcome? instruction.mode = some outcome →
        ∃ value, outcome.value instruction.mode operands.first machine.core next.core = .ok value ∧
          next.registers.status.Describe (outcome.width machine.registers) value := by
  refine ⟨keepsFlags_of_execute done, fun outcome leaves => ?_⟩
  obtain ⟨other, wdm⟩ := Outcome.sameMode_of_outcome leaves
  have same := within_execute_of_effect Registers.frame_sameMode other operands machine
  rw [done] at same
  rw [execute, if_neg wdm] at done
  obtain ⟨core, performed, rfl⟩ := onCore_eq_ok_iff.mp done
  exact Instruction.exists_value_of_execute leaves same performed

/-- A byte of zero in the direct page is counted down: N and Z tell of the byte that is there then,
and the other flags are those of a processor that was just switched on. -/
theorem flags_of_execute_decrement :
    let decrement : Instruction := { code := 0xC6, opcode := .dec, mode := .direct }
    let machine : Machine := { core := ⟨{}, .flat (View.whole Memory.least)⟩ }
    ∃ next, execute decrement { first := 0x10, length := 1 } machine = .ok () next ∧
      Registers.KeepsFlags Flags.nz machine.registers next.registers ∧
      next.bus.readAt .byte 0x10 = .ok 0xFF ∧
      next.registers.status.Describe .byte 0xFF := by
  have size := Memory.size_least
  have zero := Memory.byte_least 0x10
  generalize Memory.least = memory at size zero ⊢
  intro decrement machine
  have named : machine.bus.index? 0x10 = some 0x10 := by
    refine (View.index?_eq_some_iff _ _ _).mpr ⟨?_, rfl⟩
    show 0x10 < memory.size
    omega
  have read : machine.bus.readAt .byte 0x10 = .ok 0 :=
    (Bus.readAt_byte_eq_ok_iff _ _ _).mpr ⟨0x10, named, congrArg UInt8.toUInt16 zero⟩
  obtain ⟨bus, written, executed⟩ := @Opcode.exists_execute_memory .dec .direct
    { first := 0x10, length := 1 } {} machine.bus _ (fun _ => rfl) (by decide) 0x10 0 rfl read
  have done : execute decrement { first := 0x10, length := 1 } machine =
      .ok () { machine with core := ⟨(Registers.decrement {} 0).2, bus⟩ } := by
    have plain : decrement.opcode ≠ .wdm := by simp [decrement]
    rw [execute, if_neg plain]
    exact onCore_eq_ok_iff.mpr ⟨_, executed 0xC6, rfl⟩
  obtain ⟨kept, told⟩ := flags_of_execute done
  obtain ⟨value, found, describe⟩ := told .operand rfl
  have after : bus.readAt .byte 0x10 = .ok 0xFF := Bus.readAt_of_writeAt written
  obtain rfl : value = 0xFF := Except.ok.inj (found.symm.trans after)
  exact ⟨_, done, kept, after, describe⟩

end Machine

end W65C816
