import W65C816.Execution.Operation

/-!
# Well-formed registers

In emulation mode both width flags are set, the high bytes of the accumulator and of the index
registers are clear, and the stack pointer lies in its page. In native mode the high bytes of the
index registers are clear as long as the index width is one byte. A register file with these
properties is well-formed. It is so after power-on, and here is, for each way in which an
instruction changes the registers, that it stays so.
-/

set_option autoImplicit false

namespace W65C816

namespace Width

/-- A byte in a word is at most `0xFF`. -/
theorem dropHigh_le (value : UInt16) : Word.dropHigh value ≤ 0xFF := by
  rw [UInt16.le_iff_toNat_le]
  have h := (Word.low value).toNat_lt
  simp only [Word.dropHigh, UInt8.toNat_toUInt16, UInt16.reduceToNat]
  omega

/-- What counts of a value at the width of a byte is at most `0xFF`. -/
theorem narrow_le {width : Width} (h : width = .byte) (value : UInt16) :
    width.narrow value ≤ 0xFF := by
  rw [h]
  exact dropHigh_le value

/-- Storing a byte into a register whose high byte is clear leaves the high byte clear. -/
theorem replace_le {width : Width} (h : width = .byte) {old : UInt16} (hold : old ≤ 0xFF)
    (new : UInt16) : width.replace old new ≤ 0xFF := by
  rw [UInt16.le_iff_toNat_le] at hold ⊢
  have hlow := (Word.low new).toNat_lt
  simp only [UInt16.reduceToNat] at hold ⊢
  simp only [h, replace, Word.withLow, Word.toNat_join, Word.toNat_high]
  omega

end Width

namespace Registers

/-- Emulation mode has narrow widths, clear high bytes and the stack in its page; whenever the index
flag is set, the index registers have clear high bytes. -/
structure WellFormed (r : Registers) : Prop where
  narrow : r.emulation = true → r.status.memory8 = true ∧ r.status.index8 = true
  accumulator_le : r.emulation = true → r.a ≤ 0xFF
  index_le : r.status.index8 = true → r.x ≤ 0xFF ∧ r.y ≤ 0xFF
  stack : r.emulation = true → 0x0100 ≤ r.sp ∧ r.sp ≤ 0x01FF

/-- Widths that are narrow are not made narrow once more. -/
theorem withNarrowWidths_of_narrow {flags : Flags} (memory : flags.memory8 = true)
    (index : flags.index8 = true) : withNarrowWidths flags = flags := by
  cases flags
  cases memory
  cases index
  rfl

/-- The registers after power-on are well-formed. -/
theorem wellFormed_default : ({} : Registers).WellFormed where
  narrow := fun _ => ⟨rfl, rfl⟩
  accumulator_le := fun _ => by decide
  index_le := fun _ => ⟨by decide, by decide⟩
  stack := fun _ => ⟨by decide, by decide⟩

namespace WellFormed

variable {r : Registers}

/-! ## Widths and the stack page -/

/-- In emulation mode the accumulator is a byte. -/
theorem memoryWidth_of_emulation {r : Registers} (h : r.emulation = true) :
    r.memoryWidth = .byte := by
  simp [memoryWidth, Width.ofFlag, h]

/-- With their flag set the index registers are bytes. -/
theorem indexWidth_of_index8 {r : Registers} (h : r.status.index8 = true) :
    r.indexWidth = .byte := by
  simp [indexWidth, Width.ofFlag, h]

/-- What an index register can hold has a clear high byte when the flag says so. -/
theorem index_value_le {r : Registers} (h : r.status.index8 = true) (value : UInt16) :
    r.index value ≤ 0xFF :=
  Width.narrow_le (indexWidth_of_index8 h) value

/-- The stack pointer of emulation mode lies in the stack page. -/
theorem wrapStack_bounds {r : Registers} (h : r.emulation = true) (sp : UInt16) :
    0x0100 ≤ r.wrapStack sp ∧ r.wrapStack sp ≤ 0x01FF := by
  have hlow := (Word.low sp).toNat_lt
  have hpage : (Word.high stackPage).toNat = 1 := by decide
  simp only [UInt16.le_iff_toNat_le, wrapStack, h, if_true, Word.withLow, Word.toNat_join, hpage,
    UInt16.reduceToNat]
  omega

/-! ## Changes that keep the registers well-formed -/

/-- Neither the program bank nor the program counter matter to the form. -/
theorem program (wf : r.WellFormed) (pb : UInt8) (pc : UInt16) :
    ({ r with pb, pc } : Registers).WellFormed :=
  ⟨wf.narrow, wf.accumulator_le, wf.index_le, wf.stack⟩

/-- Neither waiting, stopping nor counting matter to the form. -/
theorem control (wf : r.WellFormed) (waiting stopped : Bool) (instructions : UInt64) :
    ({ r with waiting, stopped, instructions } : Registers).WellFormed :=
  ⟨wf.narrow, wf.accumulator_le, wf.index_le, wf.stack⟩

/-- A stack pointer that was wrapped as the mode requires. -/
theorem stackPointer (wf : r.WellFormed) (sp : UInt16) :
    ({ r with sp := r.wrapStack sp } : Registers).WellFormed :=
  ⟨wf.narrow, wf.accumulator_le, wf.index_le, fun h => wrapStack_bounds h sp⟩

/-- Flags other than those of the widths may take any value. -/
theorem flags (wf : r.WellFormed) {status : Flags} (hmemory : status.memory8 = r.status.memory8)
    (hindex : status.index8 = r.status.index8) :
    ({ r with status } : Registers).WellFormed where
  narrow := fun h => ⟨hmemory.trans (wf.narrow h).1, hindex.trans (wf.narrow h).2⟩
  accumulator_le := wf.accumulator_le
  index_le := fun h => wf.index_le (hindex.symm.trans h)
  stack := wf.stack

/-- Setting N and Z keeps the form. -/
theorem setNZ (wf : r.WellFormed) (width : Width) (value : UInt16) :
    (r.setNZ width value).WellFormed :=
  wf.flags rfl rfl

/-- Setting the carry keeps the form. -/
theorem setCarry (wf : r.WellFormed) (on : Bool) : (r.setCarry on).WellFormed :=
  wf.flags rfl rfl

/-- An index register takes what the width in force lets it hold. -/
theorem setX (wf : r.WellFormed) (value : UInt16) : (r.setX value).WellFormed :=
  ⟨wf.narrow, wf.accumulator_le, fun h => ⟨index_value_le h value, (wf.index_le h).2⟩, wf.stack⟩

/-- Setting Y at its width keeps the form. -/
theorem setY (wf : r.WellFormed) (value : UInt16) : (r.setY value).WellFormed :=
  ⟨wf.narrow, wf.accumulator_le, fun h => ⟨(wf.index_le h).1, index_value_le h value⟩, wf.stack⟩

/-- A store into the accumulator is narrow in emulation mode. -/
theorem setAccumulator (wf : r.WellFormed) (value : UInt16) :
    (r.setAccumulator value).WellFormed where
  narrow := wf.narrow
  accumulator_le := fun h =>
    Width.replace_le (memoryWidth_of_emulation h) (wf.accumulator_le h) value
  index_le := wf.index_le
  stack := wf.stack

/-- Of the sixteen bits of the accumulator, emulation mode keeps the high ones elsewhere. -/
theorem setC (wf : r.WellFormed) (value : UInt16) : (r.setC value).WellFormed := by
  unfold Registers.setC
  split
  · exact ⟨wf.narrow, fun _ => Width.dropHigh_le value, wf.index_le, wf.stack⟩
  · next native =>
    exact ⟨wf.narrow, fun h => absurd h native, wf.index_le, wf.stack⟩

/-- The data bank does not matter to the form. -/
theorem dataBank (wf : r.WellFormed) (db : UInt8) : ({ r with db } : Registers).WellFormed :=
  ⟨wf.narrow, wf.accumulator_le, wf.index_le, wf.stack⟩

/-- The direct page does not matter to the form. -/
theorem directPage (wf : r.WellFormed) (dp : UInt16) : ({ r with dp } : Registers).WellFormed :=
  ⟨wf.narrow, wf.accumulator_le, wf.index_le, wf.stack⟩

/-- The break flag does not matter to the form. -/
theorem withBreakFlag (wf : r.WellFormed) (breakFlag : Bool) :
    ({ r with breakFlag } : Registers).WellFormed :=
  ⟨wf.narrow, wf.accumulator_le, wf.index_le, wf.stack⟩

/-! ## Modes and the status -/

/-- Native mode begins with the narrow widths and the index registers of emulation mode. -/
theorem enterNative (wf : r.WellFormed) (h : r.emulation = true) : r.enterNative.WellFormed where
  narrow := fun native => absurd native Bool.false_ne_true
  accumulator_le := fun native => absurd native Bool.false_ne_true
  index_le := fun _ => wf.index_le (wf.narrow h).2
  stack := fun native => absurd native Bool.false_ne_true

/-- Emulation mode is entered with everything cut to size, from any registers in native mode. -/
theorem enterEmulation {r : Registers} (h : r.emulation = false) :
    r.enterEmulation.WellFormed where
  narrow := fun _ => ⟨rfl, rfl⟩
  accumulator_le := fun _ => by
    simp only [Registers.enterEmulation, h, Bool.false_eq_true, if_false]
    exact Width.dropHigh_le r.a
  index_le := fun _ => ⟨Width.dropHigh_le r.x, Width.dropHigh_le r.y⟩
  stack := fun _ => (by decide : 0x0100 ≤ stackPage ∧ stackPage ≤ 0x01FF)

/-- The exchange enters a mode only when it changes. -/
theorem exchangeCarryEmulation (wf : r.WellFormed) :
    r.exchangeCarryEmulation.WellFormed := by
  unfold Registers.exchangeCarryEmulation
  split
  · next emulation _ => exact wf.enterNative emulation
  · next native _ => exact enterEmulation native
  · exact wf.setCarry _

/-- Any flags that suit the mode will do once the index registers are cut to their width. -/
theorem applyIndexWidth {r : Registers}
    (narrow : r.emulation = true → r.status.memory8 = true ∧ r.status.index8 = true)
    (accumulator_le : r.emulation = true → r.a ≤ 0xFF)
    (stack : r.emulation = true → 0x0100 ≤ r.sp ∧ r.sp ≤ 0x01FF) :
    r.applyIndexWidth.WellFormed :=
  ⟨narrow, accumulator_le, fun h => ⟨index_value_le h r.x, index_value_le h r.y⟩, stack⟩

/-- A pulled status keeps the widths of emulation mode and cuts the index registers. -/
theorem setStatusByte (wf : r.WellFormed) (value : UInt8) : (r.setStatusByte value).WellFormed := by
  by_cases h : r.emulation = true
  · simp only [Registers.setStatusByte, if_pos h]
    exact applyIndexWidth (fun _ => ⟨rfl, rfl⟩) wf.accumulator_le wf.stack
  · simp only [Registers.setStatusByte, if_neg h]
    exact applyIndexWidth (fun emulation => absurd emulation h) wf.accumulator_le wf.stack

/-- Clearing flags leaves the widths of emulation mode alone and can only widen the index registers
of native mode. -/
theorem clearStatusBits (wf : r.WellFormed) (mask : UInt8) :
    (r.clearStatusBits mask).WellFormed where
  narrow := fun h => by
    have emulation : r.emulation = true := h
    simpa [Registers.clearStatusBits, Flags.clear, emulation] using wf.narrow emulation
  accumulator_le := wf.accumulator_le
  index_le := fun h => by
    have before : r.status.index8 = true := by
      simp only [Registers.clearStatusBits, Flags.clear, Bool.and_eq_true] at h
      exact h.1
    exact wf.index_le before
  stack := wf.stack

/-- Setting flags cuts the index registers if it makes them narrow. -/
theorem setStatusBits (wf : r.WellFormed) (mask : UInt8) : (r.setStatusBits mask).WellFormed := by
  refine applyIndexWidth (fun h => ?_) wf.accumulator_le wf.stack
  have narrow := wf.narrow h
  simp [Flags.set, narrow]

/-! ## Loads and arithmetic -/

/-- Loading the accumulator keeps the form. -/
theorem loadAccumulator (wf : r.WellFormed) (value : UInt16) :
    (r.loadAccumulator value).WellFormed :=
  (wf.setAccumulator value).setNZ _ _

/-- Loading X keeps the form. -/
theorem loadX (wf : r.WellFormed) (value : UInt16) : (r.loadX value).WellFormed :=
  (wf.setX value).setNZ _ _

/-- Loading Y keeps the form. -/
theorem loadY (wf : r.WellFormed) (value : UInt16) : (r.loadY value).WellFormed :=
  (wf.setY value).setNZ _ _

/-- Addition keeps the form. -/
theorem add (wf : r.WellFormed) (operand : UInt16) : (r.add operand).WellFormed := by
  refine WellFormed.loadAccumulator ?_ _
  exact wf.flags rfl rfl

/-- Subtraction keeps the form. -/
theorem subtract (wf : r.WellFormed) (operand : UInt16) : (r.subtract operand).WellFormed := by
  refine WellFormed.loadAccumulator ?_ _
  exact wf.flags rfl rfl

/-- Comparison keeps the form. -/
theorem compare (wf : r.WellFormed) (width : Width) (register value : UInt16) :
    (r.compare width register value).WellFormed :=
  (wf.setCarry _).setNZ _ _

/-- Testing for zero keeps the form. -/
theorem testZero (wf : r.WellFormed) (value : UInt16) : (r.testZero value).WellFormed :=
  wf.flags rfl rfl

/-- Testing bits keeps the form. -/
theorem testBits (wf : r.WellFormed) (value : UInt16) : (r.testBits value).WellFormed :=
  (wf.testZero value).flags rfl rfl

/-- The result of a change in place sets flags alone. -/
theorem result (wf : r.WellFormed) (value : UInt16) : (r.result value).2.WellFormed :=
  wf.setNZ _ _

/-- Exchanging the bytes of the accumulator keeps the form. -/
theorem exchangeBytes (wf : r.WellFormed) : r.exchangeBytes.WellFormed :=
  (wf.setC _).setNZ _ _

/-- A step of a block move goes through the index registers and the accumulator. -/
theorem afterMove (wf : r.WellFormed) (step : UInt16 → UInt16) (destination : UInt8) :
    (Effect.afterMove step destination r).WellFormed := by
  have moved := (((wf.dataBank destination).setX (step r.x)).setY (step r.y)).setC (r.c - 1)
  by_cases done : r.c - 1 = 0xFFFF
  · simpa only [Effect.afterMove, if_pos done] using moved
  · simp only [Effect.afterMove, if_neg done]
    exact moved.program _ _

end WellFormed

end Registers

end W65C816
