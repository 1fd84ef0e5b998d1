import W65C816.Catalog.Table

/-!
# Encoding instructions

Someone who wants to write an instruction names an operation, a mode and the width of the operand.
`DispatchTable.lookup` finds the instruction; an operation with a single encoding is found whatever
mode is named. The operand has to fit the instruction: a constant has to have a width that it is
read at under some register widths. `Instruction.encode` is the row of bytes that
`Instruction.decode` reads back, and `DispatchTable.write` puts it onto a bus, either all of it or
none.
-/

set_option autoImplicit false

namespace W65C816

open Addressing

/-- The instruction for an operation and a mode. -/
def DispatchTable.lookup (table : DispatchTable) (opcode : Opcode) (mode : Mode) :
    Except Fault Instruction :=
  match table.find? opcode mode with
  | some instruction => .ok instruction
  | none =>
    match table.encodingsOf opcode with
    | [only] => .ok only
    | [] => .error (.invalidOperation (.notRegistered opcode))
    | _ => .error (.invalidOperation (.noEncoding opcode mode))

/-- Whether a constant of the width is read under some register widths. -/
def Opcode.takesImmediate (opcode : Opcode) (width : OperandWidth) : Bool :=
  opcode.immediateLength? { memory := .byte, index := .byte } == some width.length ||
    opcode.immediateLength? { memory := .word, index := .word } == some width.length

/-- Whether operands of the width fit the instruction. The width is not looked at for a block
move. -/
def Instruction.fits (instruction : Instruction) (width : OperandWidth) : Bool :=
  match instruction.mode.operandLength? with
  | some length => instruction.mode == .blockMove || length == width.length
  | none => instruction.opcode.takesImmediate width

/-- The low `length` bytes of a number of at most three bytes, lowest first. -/
def littleEndian (value : UInt32) (length : Nat) : List UInt8 :=
  [Address.low value, Address.middle value, Address.bank value].take length

/-- The bytes of an instruction with operands of the given width. -/
def Instruction.encode (instruction : Instruction) (width : OperandWidth)
    (first second : UInt32) : List UInt8 :=
  instruction.code ::
    if instruction.mode = .blockMove then [Address.low second, Address.low first]
    else littleEndian first (instruction.mode.operandLength?.getD width.length)

/-- A request to write an instruction. -/
structure WriteRequest where
  opcode : Opcode
  mode : Mode
  width : OperandWidth
  first : UInt32 := 0
  second : UInt32 := 0
deriving DecidableEq, Repr

/-- The bytes that a request asks for. -/
def DispatchTable.bytesFor (table : DispatchTable) (request : WriteRequest) :
    Except Fault (List UInt8) :=
  match table.lookup request.opcode request.mode with
  | .error fault => .error fault
  | .ok instruction =>
    if instruction.fits request.width then
      .ok (instruction.encode request.width request.first request.second)
    else
      .error (.invalidOperation
        (.operandMismatch request.width instruction.opcode instruction.mode))

/-- Writes an instruction and yields the offset behind it. -/
def DispatchTable.write (table : DispatchTable) (offset : UInt32) (request : WriteRequest) :
    EStateM Fault Bus UInt32 := fun bus =>
  match table.bytesFor request with
  | .error fault => .error fault bus
  | .ok bytes =>
    match Bus.writeBlock offset bytes bus with
    | .ok _ bus => .ok (offset + UInt32.ofNat bytes.length) bus
    | .error fault bus => .error fault bus

end W65C816
