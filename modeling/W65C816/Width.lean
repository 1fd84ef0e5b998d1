import W65C816.Word

/-!
# Register widths

The accumulator and the index registers are one or two bytes wide, each pair by a flag of its own.
A value is always carried in a word. `Width.narrow` is the part of it that counts at a width,
`Width.replace` writes that part into a register, and `Width.sign` is the bit that makes it
negative.
-/

set_option autoImplicit false

namespace W65C816

/-- How wide a register is. -/
inductive Width where
  | byte
  | word
deriving DecidableEq, Repr

namespace Width

/-- The width that a flag selects: set means narrow. -/
def ofFlag (narrow : Bool) : Width :=
  if narrow then .byte else .word

/-- The number of bytes. -/
def bytes : Width → Nat
  | .byte => 1
  | .word => 2

/-- No value at a width takes more than two bytes. -/
theorem bytes_le (width : Width) : width.bytes ≤ 2 := by
  cases width <;> decide

/-- The number of values. -/
def limit : Width → Nat
  | .byte => 0x100
  | .word => 0x10000

/-- The part of a value that counts. -/
def narrow : Width → UInt16 → UInt16
  | .byte, value => Word.dropHigh value
  | .word, value => value

/-- A register after a value was stored into the part of it that counts. -/
def replace : Width → UInt16 → UInt16 → UInt16
  | .byte, old, new => Word.withLow old (Word.low new)
  | .word, _, new => new

/-- The weight of the bit that makes a value negative. -/
def highest : Width → UInt16
  | .byte => 0x80
  | .word => 0x8000

def sign (width : Width) (value : UInt16) : Bool :=
  Word.bit value (8 * width.bytes - 1)

/-- Narrowing twice is narrowing once. -/
@[simp] theorem narrow_narrow (width : Width) (value : UInt16) :
    width.narrow (width.narrow value) = width.narrow value := by
  cases width
  · apply UInt16.toNat.inj
    simp [narrow, Word.dropHigh, Word.toNat_low]
  · rfl

/-- A narrowed value is below the limit of its width. -/
theorem narrow_lt (width : Width) (value : UInt16) : (width.narrow value).toNat < width.limit := by
  cases width
  · have := (Word.low value).toNat_lt
    simpa [narrow, Word.dropHigh, limit] using this
  · simpa [narrow, limit] using value.toNat_lt

end Width

/-- The register widths under which an instruction is read. After a reset both are one byte. -/
structure Widths where
  /-- The width of the accumulator and of memory operands. -/
  memory : Width := .byte
  index : Width := .byte
deriving DecidableEq, Repr

end W65C816
