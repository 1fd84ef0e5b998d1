import W65C816.Text.Ranges

/-!
# Blank characters

The characters with the property White_Space, which is what surrounding blanks are trimmed by.
They are 25 code points in ten ranges. The set contains every character that `Char.isWhitespace`
accepts and adds the vertical tab, the form feed and the blanks beyond ASCII.
-/

set_option autoImplicit false

namespace W65C816.Text.Blank

/-- Closed ranges of code points, ascending and apart. -/
def ranges : Ranges :=
  [(0x09, 0x0D), (0x20, 0x20), (0x85, 0x85), (0xA0, 0xA0), (0x1680, 0x1680), (0x2000, 0x200A),
   (0x2028, 0x2029), (0x202F, 0x202F), (0x205F, 0x205F), (0x3000, 0x3000)]

def isBlank (c : Char) : Bool :=
  ranges.contains c.toNat

/-- The text without the blanks at either end. -/
def trim (s : List Char) : List Char :=
  ((s.dropWhile isBlank).reverse.dropWhile isBlank).reverse

example : ranges.count = 25 := by decide

example : trim "\t 12 ".toList = "12".toList := by decide

end W65C816.Text.Blank
