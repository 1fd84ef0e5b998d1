/-!
# Ranges of code points

A property of characters is a list of closed ranges of code points. The ranges of a table ascend and
do not touch, so that a search may stop at the first range that lies beyond the code point.
-/

set_option autoImplicit false

namespace W65C816.Text

/-- Closed ranges of code points, each with its first and its last one. -/
abbrev Ranges := List (Nat × Nat)

namespace Ranges

/-- Whether a code point lies in one of the ranges. -/
def contains : Ranges → Nat → Bool
  | [], _ => false
  | range :: rest, n => Nat.ble range.1 n && (Nat.ble n range.2 || contains rest n)

/-- The number of code points in ranges that are apart. -/
def count (ranges : Ranges) : Nat :=
  ranges.foldr (fun range rest => range.2 + 1 - range.1 + rest) 0

end Ranges

end W65C816.Text
