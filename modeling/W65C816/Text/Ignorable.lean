import W65C816.Text.Ranges

/-!
# Ignorable characters

The characters with the property Default_Ignorable_Code_Point of Unicode 17.0: where they have no
meaning of their own they are shown as nothing at all. Most of them are unprintable or extend the
character before them; the fillers of Hangul, which are letters, are not. They are 4174 code points
in 17 ranges, none of them in ASCII.
-/

set_option autoImplicit false

namespace W65C816.Text.Ignorable

/-- Closed ranges of code points, ascending and apart. -/
def ranges : Ranges :=
  [(0x00AD, 0x00AD), (0x034F, 0x034F), (0x061C, 0x061C), (0x115F, 0x1160), (0x17B4, 0x17B5),
   (0x180B, 0x180F), (0x200B, 0x200F), (0x202A, 0x202E), (0x2060, 0x206F), (0x3164, 0x3164),
   (0xFE00, 0xFE0F), (0xFEFF, 0xFEFF), (0xFFA0, 0xFFA0), (0xFFF0, 0xFFF8), (0x1BCA0, 0x1BCA3),
   (0x1D173, 0x1D17A), (0xE0000, 0xE0FFF)]

/-- Whether the character may be shown as nothing. -/
def isIgnorable (c : Char) : Bool :=
  ranges.contains c.toNat

example : ranges.count = 4174 := by decide +kernel

end W65C816.Text.Ignorable
