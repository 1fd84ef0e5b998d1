/-!
# Addressing modes

The ways in which an instruction names its operand. A mode fixes how many operand bytes follow the
leading byte, with one exception: the width of an immediate constant depends on the operation and on
the register widths in force.
-/

set_option autoImplicit false

namespace W65C816.Addressing

/-- How an instruction names its operand. -/
inductive Mode where
  | implied
  | accumulator
  /-- A constant, whose width comes from the widths in force or from the operation. -/
  | immediate
  /-- A direct-page byte: `$12`. -/
  | direct
  /-- Written `$12, x`. -/
  | directIndexedX
  /-- Written `$12, y`. -/
  | directIndexedY
  /-- Written `($12)`. -/
  | directIndirect
  /-- Written `($12, x)`. -/
  | directIndexedIndirect
  /-- Written `($12), y`. -/
  | directIndirectIndexed
  /-- Written `[$12]`. -/
  | directIndirectLong
  /-- Written `[$12], y`. -/
  | directIndirectIndexedLong
  /-- An address in the data bank: `$1234`. -/
  | absolute
  /-- Written `$1234, x`. -/
  | absoluteIndexedX
  /-- Written `$1234, y`. -/
  | absoluteIndexedY
  /-- A full address: `$123456`. -/
  | absoluteLong
  /-- Written `$123456, x`. -/
  | absoluteLongIndexedX
  /-- Written `($1234)`, for jumps. -/
  | absoluteIndirect
  /-- Written `($1234, x)`, for jumps and calls. -/
  | absoluteIndexedIndirect
  /-- Written `[$1234]`, for long jumps. -/
  | absoluteIndirectLong
  /-- Written `$12, s`. -/
  | stackRelative
  /-- Written `($12, s), y`. -/
  | stackRelativeIndirectIndexed
  /-- A signed displacement of eight bits. -/
  | programCounterRelative
  /-- A signed displacement of sixteen bits. -/
  | programCounterRelativeLong
  /-- The source and destination banks of a block move. -/
  | blockMove
deriving DecidableEq, Repr

namespace Mode

def all : List Mode :=
  [.implied, .accumulator, .immediate, .direct, .directIndexedX, .directIndexedY,
   .directIndirect, .directIndexedIndirect, .directIndirectIndexed, .directIndirectLong,
   .directIndirectIndexedLong, .absolute, .absoluteIndexedX, .absoluteIndexedY, .absoluteLong,
   .absoluteLongIndexedX, .absoluteIndirect, .absoluteIndexedIndirect, .absoluteIndirectLong,
   .stackRelative, .stackRelativeIndirectIndexed, .programCounterRelative,
   .programCounterRelativeLong, .blockMove]

/-- The name under which error texts mention the mode. -/
def name : Mode → String
  | .implied => "Implied"
  | .accumulator => "Accumulator"
  | .immediate => "Immediate"
  | .direct => "Direct"
  | .directIndexedX => "DirectIndexedX"
  | .directIndexedY => "DirectIndexedY"
  | .directIndirect => "DirectIndirect"
  | .directIndexedIndirect => "DirectIndexedIndirect"
  | .directIndirectIndexed => "DirectIndirectIndexed"
  | .directIndirectLong => "DirectIndirectLong"
  | .directIndirectIndexedLong => "DirectIndirectIndexedLong"
  | .absolute => "Absolute"
  | .absoluteIndexedX => "AbsoluteIndexedX"
  | .absoluteIndexedY => "AbsoluteIndexedY"
  | .absoluteLong => "AbsoluteLong"
  | .absoluteLongIndexedX => "AbsoluteLongIndexedX"
  | .absoluteIndirect => "AbsoluteIndirect"
  | .absoluteIndexedIndirect => "AbsoluteIndexedIndirect"
  | .absoluteIndirectLong => "AbsoluteIndirectLong"
  | .stackRelative => "StackRelative"
  | .stackRelativeIndirectIndexed => "StackRelativeIndirectIndexed"
  | .programCounterRelative => "ProgramCounterRelative"
  | .programCounterRelativeLong => "ProgramCounterRelativeLong"
  | .blockMove => "BlockMove"

/-- The mode with the given name. -/
def ofName? (text : String) : Option Mode :=
  all.find? fun mode => mode.name = text

/-- The number of operand bytes, or nothing for an immediate constant, whose width the mode alone
does not determine. -/
def operandLength? : Mode → Option Nat
  | .implied | .accumulator => some 0
  | .immediate => none
  | .direct | .directIndexedX | .directIndexedY | .directIndirect | .directIndexedIndirect
  | .directIndirectIndexed | .directIndirectLong | .directIndirectIndexedLong | .stackRelative
  | .stackRelativeIndirectIndexed | .programCounterRelative => some 1
  | .absolute | .absoluteIndexedX | .absoluteIndexedY | .absoluteIndirect
  | .absoluteIndexedIndirect | .absoluteIndirectLong | .programCounterRelativeLong
  | .blockMove => some 2
  | .absoluteLong | .absoluteLongIndexedX => some 3

/-- Whether operand bytes follow the leading byte. -/
def hasOperands (mode : Mode) : Bool :=
  mode.operandLength? != some 0

/-- No mode takes more than three operand bytes. -/
theorem operandLength?_le {mode : Mode} {n : Nat} (h : mode.operandLength? = some n) : n ≤ 3 := by
  cases mode <;> simp [operandLength?] at h <;> omega

end Mode

end W65C816.Addressing
