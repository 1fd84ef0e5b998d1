import W65C816.Execution.Effect

/-!
# The operations

The effect of every operation. Only `BIT` has one that hangs on the mode: with a constant it leaves
N and V alone. `WDM` does nothing to the core; the hook that it calls is the machine's business.
The stand-in for a byte without an instruction has no effect and fails when it is executed.
-/

set_option autoImplicit false

namespace W65C816

open Addressing

namespace Effect

def flags (change : Flags → Flags) : Effect :=
  .registers fun r => { r with status := change r.status }

/-- Goes to the effective address within the program bank, if the flags allow it. -/
def branch (condition : Flags → Bool) : Effect :=
  .jump (fun r => condition r.status) fun r address => { r with pc := Address.offset address }

/-- Combines the accumulator with an operand. -/
def combine (operation : UInt16 → UInt16 → UInt16) : Effect :=
  .read Registers.memoryWidth fun r value =>
    r.loadAccumulator (operation r.accumulator value)

/-- Pushes a byte of the registers. -/
def pushByte (value : Registers → UInt8) : Effect :=
  .push (fun _ => .byte) fun r _ => (value r).toUInt16

/-- Pushes a word that the registers and the operand determine. -/
def pushWord (value : Registers → UInt16 → UInt16) : Effect :=
  .push (fun _ => .word) value

end Effect

/-- The status as `PHP` pushes it: in emulation mode the break flag reads as set. -/
def Registers.pushedStatus (r : Registers) : UInt8 :=
  if r.emulation then { r with breakFlag := true : Registers }.statusByte else r.statusByte

/-- The effect of an operation in a mode. -/
def Opcode.effect? (mode : Mode) : Opcode → Option Effect
  | .adc => some (.read Registers.memoryWidth Registers.add)
  | .sbc => some (.read Registers.memoryWidth Registers.subtract)
  | .and => some (.combine (· &&& ·))
  | .eor => some (.combine (· ^^^ ·))
  | .ora => some (.combine (· ||| ·))
  | .bit =>
    some (.read Registers.memoryWidth
      (if mode = .immediate then Registers.testZero else Registers.testBits))
  | .cmp =>
    some (.read Registers.memoryWidth fun r => r.compare r.memoryWidth r.accumulator)
  | .cpx => some (.read Registers.indexWidth fun r => r.compare r.indexWidth r.xIndex)
  | .cpy => some (.read Registers.indexWidth fun r => r.compare r.indexWidth r.yIndex)
  | .asl => some (.replace Registers.shiftLeft)
  | .lsr => some (.replace Registers.shiftRight)
  | .rol => some (.replace Registers.rotateLeft)
  | .ror => some (.replace Registers.rotateRight)
  | .inc => some (.replace Registers.increment)
  | .dec => some (.replace Registers.decrement)
  | .tsb => some (.replace Registers.setBits)
  | .trb => some (.replace Registers.clearBits)
  | .inx => some (.registers fun r => r.loadX (r.x + 1))
  | .iny => some (.registers fun r => r.loadY (r.y + 1))
  | .dex => some (.registers fun r => r.loadX (r.x - 1))
  | .dey => some (.registers fun r => r.loadY (r.y - 1))
  | .lda => some (.read Registers.memoryWidth Registers.loadAccumulator)
  | .ldx => some (.read Registers.indexWidth Registers.loadX)
  | .ldy => some (.read Registers.indexWidth Registers.loadY)
  | .sta => some (.write Registers.memoryWidth Registers.accumulator)
  | .stx => some (.write Registers.indexWidth Registers.xIndex)
  | .sty => some (.write Registers.indexWidth Registers.yIndex)
  | .stz => some (.write Registers.memoryWidth fun _ => 0)
  | .bcc => some (.branch fun flags => !flags.carry)
  | .bcs => some (.branch fun flags => flags.carry)
  | .bne => some (.branch fun flags => !flags.zero)
  | .beq => some (.branch fun flags => flags.zero)
  | .bpl => some (.branch fun flags => !flags.negative)
  | .bmi => some (.branch fun flags => flags.negative)
  | .bvc => some (.branch fun flags => !flags.overflow)
  | .bvs => some (.branch fun flags => flags.overflow)
  | .bra | .brl | .jmp => some (.branch fun _ => true)
  | .jml => some (.jump (fun _ => true) Registers.jumpTo)
  | .jsr => some .call
  | .jsl => some .callLong
  | .rts => some .returnNear
  | .rtl => some .returnLong
  | .rti => some .returnFromInterrupt
  | .brk => some (.interrupt true 0xFFFE 0xFFE6)
  | .cop => some (.interrupt false 0xFFF4 0xFFE4)
  | .pha => some (.push Registers.memoryWidth fun r _ => r.accumulator)
  | .phx => some (.push Registers.indexWidth fun r _ => r.xIndex)
  | .phy => some (.push Registers.indexWidth fun r _ => r.yIndex)
  | .phb => some (.pushByte Registers.db)
  | .phd => some (.pushWord fun r _ => r.dp)
  | .phk => some (.pushByte Registers.pb)
  | .php => some (.pushByte Registers.pushedStatus)
  | .pea => some (.pushWord fun _ operand => operand)
  | .pei => some .pushIndirect
  | .per => some (.pushWord fun r operand => r.pc + operand)
  | .pla => some (.pull Registers.memoryWidth Registers.loadAccumulator)
  | .plx => some (.pull Registers.indexWidth Registers.loadX)
  | .ply => some (.pull Registers.indexWidth Registers.loadY)
  | .plb =>
    some (.pull (fun _ => .byte) fun r value =>
      { r with db := Word.low value : Registers }.setNZ .byte value)
  | .pld =>
    some (.pull (fun _ => .word) fun r value =>
      { r with dp := value : Registers }.setNZ .word value)
  | .plp => some (.pull (fun _ => .byte) fun r value => r.setStatusByte (Word.low value))
  | .clc => some (.flags fun flags => { flags with carry := false })
  | .sec => some (.flags fun flags => { flags with carry := true })
  | .cld => some (.flags fun flags => { flags with decimal := false })
  | .sed => some (.flags fun flags => { flags with decimal := true })
  | .cli => some (.flags fun flags => { flags with interruptDisable := false })
  | .sei => some (.flags fun flags => { flags with interruptDisable := true })
  | .clv => some (.flags fun flags => { flags with overflow := false })
  | .rep => some (.operand fun r value => r.clearStatusBits value)
  | .sep => some (.operand fun r value => r.setStatusBits value)
  | .xce => some (.registers Registers.exchangeCarryEmulation)
  | .tax => some (.registers fun r => r.loadX r.c)
  | .tay => some (.registers fun r => r.loadY r.c)
  | .txa => some (.registers fun r => r.loadAccumulator r.x)
  | .tya => some (.registers fun r => r.loadAccumulator r.y)
  | .txy => some (.registers fun r => r.loadY r.x)
  | .tyx => some (.registers fun r => r.loadX r.y)
  | .tsx => some (.registers fun r => r.loadX r.sp)
  | .txs => some (.registers fun r => { r with sp := r.wrapStack r.x })
  | .tcs => some (.registers fun r => { r with sp := r.wrapStack r.c })
  | .tsc => some (.registers fun r => (r.setC r.sp).setNZ .word r.sp)
  | .tcd => some (.registers fun r => { r with dp := r.c : Registers }.setNZ .word r.c)
  | .tdc => some (.registers fun r => (r.setC r.dp).setNZ .word r.dp)
  | .xba => some (.registers Registers.exchangeBytes)
  | .mvn => some (.move (· + 1))
  | .mvp => some (.move (· - 1))
  | .stp => some (.registers fun r => { r with stopped := true })
  | .wai => some (.registers fun r => { r with waiting := true })
  | .nop | .wdm => some (.registers id)
  | .invalid => none

/-- Executes an instruction on the core. Reading it and moving the program counter past it are not
part of this. -/
def Instruction.execute (instruction : Instruction) (operands : Operands) : Exec Unit :=
  match instruction.opcode.effect? instruction.mode with
  | some effect => effect.perform instruction.mode operands
  | none => throw (.unrecognizedInstruction instruction.code)

end W65C816
