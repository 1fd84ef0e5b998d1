import W65C816.Text.Blank

/-!
# Reading unsigned numerals

A numeral is an optional plus sign and at least one digit of its base, with nothing else around
or between the digits; letters count as digits from ten upward, in either case. A numeral beyond
the limit of the quantity that it names is refused, and so is a minus sign.

`address?` is the form in which addresses and counts are given on a command line: blanks around
the numeral are dropped, `0x` or a dollar sign announces base sixteen, and the value has to fit 32
bits.
-/

set_option autoImplicit false

namespace W65C816.Text.Numeral

/-- The value of a digit in the given base. -/
def digit? (base : Nat) (c : Char) : Option Nat :=
  let value :=
    if '0' ≤ c ∧ c ≤ '9' then some (c.toNat - '0'.toNat)
    else if 'a' ≤ c ∧ c ≤ 'z' then some (c.toNat - 'a'.toNat + 10)
    else if 'A' ≤ c ∧ c ≤ 'Z' then some (c.toNat - 'A'.toNat + 10)
    else none
  value.filter (· < base)

/-- The value of a row of digits that continues a number with value `value`. -/
def digitsFrom? (base : Nat) (value : Nat) : List Char → Option Nat
  | [] => some value
  | c :: rest => (digit? base c).bind fun d => digitsFrom? base (base * value + d) rest

/-- The value of a numeral that is below `limit`. -/
def read? (base limit : Nat) (text : List Char) : Option Nat :=
  let digits := match text with
    | '+' :: rest => rest
    | _ => text
  if digits.isEmpty then none else (digitsFrom? base 0 digits).filter (· < limit)

/-- An address or a count as it is given on a command line. -/
def address? (text : String) : Option UInt32 :=
  let value := match Blank.trim text.toList with
    | '0' :: 'x' :: rest => read? 16 UInt32.size rest
    | '$' :: rest => read? 16 UInt32.size rest
    | rest => read? 10 UInt32.size rest
  value.map UInt32.ofNat

example : address? " $ff " = some 255 := by decide +kernel

example : address? "0x" = none := by decide +kernel

example : address? "4294967296" = none := by decide +kernel

end W65C816.Text.Numeral
