import W65C816.Registers.Mode
import W65C816.Text.Hexadecimal
import W65C816.Text.Json.Layout

/-!
# Snapshots of the registers

A snapshot is what a trace or a report keeps of the registers: everything but the break flag and
the two flags of a halted processor. Its `p` is the status byte as the stack would hold it.
-/

set_option autoImplicit false

namespace W65C816

open Text

/-- The registers as a trace or a report shows them. -/
structure Snapshot where
  a : UInt16
  b : UInt8
  x : UInt16
  y : UInt16
  sp : UInt16
  dp : UInt16
  db : UInt8
  pb : UInt8
  pc : UInt16
  /-- The status as the stack would hold it. -/
  p : UInt8
  emulation : Bool
  instructions : UInt64
deriving DecidableEq, Repr

/-- The snapshot of the registers. -/
def Registers.snapshot (r : Registers) : Snapshot where
  a := r.a
  b := r.b
  x := r.x
  y := r.y
  sp := r.sp
  dp := r.dp
  db := r.db
  pb := r.pb
  pc := r.pc
  p := r.statusByte
  emulation := r.emulation
  instructions := r.instructions

namespace Snapshot

/-- The registers on one line, in base sixteen. -/
def line (s : Snapshot) : String :=
  let word (name : String) (value : UInt16) := name ++ ":" ++ Hexadecimal.padded 4 value.toNat
  let byte (name : String) (value : UInt8) := name ++ ":" ++ Hexadecimal.padded 2 value.toNat
  " ".intercalate
    [word "A" s.a, word "X" s.x, word "Y" s.y, word "S" s.sp, word "D" s.dp, byte "DB" s.db,
     byte "P" s.p, "E:" ++ if s.emulation then "1" else "0"]

/-- The members of the snapshot as a JSON object. -/
def members (s : Snapshot) : List (String × String) :=
  [("a", toString s.a.toNat), ("b", toString s.b.toNat), ("x", toString s.x.toNat),
   ("y", toString s.y.toNat), ("sp", toString s.sp.toNat), ("dp", toString s.dp.toNat),
   ("db", toString s.db.toNat), ("pb", toString s.pb.toNat), ("pc", toString s.pc.toNat),
   ("p", toString s.p.toNat), ("emulation", Json.Layout.truth s.emulation),
   ("instructions", toString s.instructions.toNat)]

/-- The snapshot as a JSON object on one line. -/
def json (s : Snapshot) : String :=
  Json.Layout.compact s.members

/-- The snapshot as a JSON object with each member on a line of its own. -/
def indentedJson (s : Snapshot) : String :=
  Json.Layout.indented s.members

end Snapshot

end W65C816
