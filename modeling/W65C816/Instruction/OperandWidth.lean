/-!
# Operand widths

A writer of instructions says how many operand bytes are to follow the leading byte. `OperandWidth`
is that number, from none to three, under the name by which error texts mention it.
-/

set_option autoImplicit false

namespace W65C816

/-- The width of the operand bytes behind a leading byte. -/
inductive OperandWidth where
  | none
  | byte
  | word
  | long
deriving DecidableEq, Repr

namespace OperandWidth

/-- Every width, from the narrowest to the widest. -/
def all : List OperandWidth :=
  [.none, .byte, .word, .long]

/-- The number of operand bytes. -/
def length : OperandWidth → Nat
  | .none => 0
  | .byte => 1
  | .word => 2
  | .long => 3

/-- The width with the given number of bytes. -/
def ofLength? : Nat → Option OperandWidth
  | 0 => some .none
  | 1 => some .byte
  | 2 => some .word
  | 3 => some .long
  | _ => Option.none

/-- The name under which error texts mention the width. -/
def name : OperandWidth → String
  | .none => "None"
  | .byte => "Byte"
  | .word => "Word"
  | .long => "Long"

/-- The width with the given name. -/
def ofName? (text : String) : Option OperandWidth :=
  all.find? fun width => width.name = text

/-- The length of an operand determines its width. -/
@[simp] theorem ofLength?_length (width : OperandWidth) : ofLength? width.length = some width := by
  cases width <;> rfl

end OperandWidth

end W65C816
