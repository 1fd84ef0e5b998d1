import W65C816.Instruction.Basic

/-!
# Assembly text

The text of an instruction is its mnemonic and, if its mode has one, the operand in the notation of
the mode. Numbers are written in base sixteen behind a dollar sign, with two digits for each byte
of the operand. A byte without an instruction is written as data.
-/

set_option autoImplicit false

namespace W65C816

open Addressing Text

/-- An operand of so many bytes as it is written. No operand is narrower than a byte and none is
wider than three. -/
def operandText (value : UInt32) (length : Nat) : String :=
  match length with
  | 0 | 1 => "$" ++ Hexadecimal.padded 2 (value.toNat % 0x100)
  | 2 => "$" ++ Hexadecimal.padded 4 (value.toNat % 0x10000)
  | _ => "$" ++ Hexadecimal.padded 6 (value.toNat % 0x1000000)

/-- The operand in the notation of the mode, if the mode has one. -/
def Addressing.Mode.operandText? (mode : Mode) (operands : Operands) : Option String :=
  let value := operandText operands.first operands.length
  match mode with
  | .implied => none
  | .accumulator => some "A"
  | .immediate => some ("#" ++ value)
  | .direct | .absolute | .absoluteLong | .programCounterRelative
  | .programCounterRelativeLong => some value
  | .directIndexedX | .absoluteIndexedX | .absoluteLongIndexedX => some (value ++ ", x")
  | .directIndexedY | .absoluteIndexedY => some (value ++ ", y")
  | .directIndirect | .absoluteIndirect => some ("(" ++ value ++ ")")
  | .directIndexedIndirect | .absoluteIndexedIndirect => some ("(" ++ value ++ ", x)")
  | .directIndirectIndexed => some ("(" ++ value ++ "), y")
  | .directIndirectLong | .absoluteIndirectLong => some ("[" ++ value ++ "]")
  | .directIndirectIndexedLong => some ("[" ++ value ++ "], y")
  | .stackRelative => some (value ++ ", s")
  | .stackRelativeIndirectIndexed => some ("(" ++ value ++ ", s), y")
  | .blockMove => some (operandText operands.first 1 ++ ", " ++ operandText operands.second 1)

/-- The instruction with its operands as assembly text. -/
def Instruction.text (instruction : Instruction) (operands : Operands) : String :=
  if instruction.isValid then
    match instruction.mode.operandText? operands with
    | some operand => instruction.opcode.mnemonic ++ " " ++ operand
    | none => instruction.opcode.mnemonic
  else
    ".byte $" ++ Hexadecimal.padded 2 instruction.code.toNat

end W65C816
