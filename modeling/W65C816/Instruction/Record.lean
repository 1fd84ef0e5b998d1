import W65C816.Instruction.Text

/-!
# Decoded instructions

A record is an instruction as it was found at a position: with its operands and the number of bytes
that it takes up. The next instruction follows at `Record.next`.
-/

set_option autoImplicit false

namespace W65C816

open Text

/-- An instruction found at a position. -/
structure Record where
  /-- The position of the leading byte. -/
  offset : UInt32
  instruction : Instruction
  operands : Operands
deriving DecidableEq, Repr

namespace Record

/-- The number of bytes of the instruction. -/
def length (record : Record) : Nat :=
  1 + record.operands.length

/-- The position behind the instruction. -/
def next (record : Record) : UInt32 :=
  record.offset + UInt32.ofNat record.length

def text (record : Record) : String :=
  record.instruction.text record.operands

/-- The line of a listing: the offset and the assembly text. -/
def line (record : Record) : String :=
  Hexadecimal.padded 6 record.offset.toNat ++ "  " ++ record.text

end Record

/-- A listing has one line for each record. -/
def listing (records : List Record) : String :=
  "\n".intercalate (records.map Record.line)

end W65C816
