/-!
# Upper-case hexadecimal numerals

Addresses, operands and register values are written in base sixteen with upper-case digits and,
where a column has a fixed width, padded with zeros on the left. A number that needs more digits
than the width is written in full, so no digit is ever lost.
-/

set_option autoImplicit false

namespace W65C816.Text.Hexadecimal

/-- The character that stands for the digit `d`, for `d` below sixteen. -/
def digit (d : Nat) : Char :=
  if d < 10 then Char.ofNat ('0'.toNat + d) else Char.ofNat ('A'.toNat + (d - 10))

/-- The digits of `n`, most significant first and without leading zeros. Zero is one digit. -/
def digits (n : Nat) : List Char :=
  if n < 16 then [digit n] else digits (n / 16) ++ [digit (n % 16)]

/-- The digits of `n` behind as many zeros as it takes to fill `width` places. -/
def paddedDigits (width n : Nat) : List Char :=
  List.replicate (width - (digits n).length) '0' ++ digits n

/-- The numeral of `n`, padded with zeros to at least `width` places. -/
def padded (width n : Nat) : String :=
  String.ofList (paddedDigits width n)

/-- The numeral of `n` without leading zeros. -/
def plain (n : Nat) : String :=
  String.ofList (digits n)

example : padded 6 0x7E0010 = "7E0010" := by decide +kernel

example : padded 2 0x12345 = "12345" := by decide +kernel

end W65C816.Text.Hexadecimal
