import W65C816.Registers.Snapshot
import W65C816.Text.Json.Document

/-!
# Reading snapshots

A snapshot is read from a JSON object that has each of its members exactly once, in any order and
among any others, or from an array of the values in the order in which they are written. A number
has to fit the register.
-/

set_option autoImplicit false

namespace W65C816.Snapshot

open Text

/-- The keys of a snapshot in the order in which they are written. -/
def keys : List String :=
  ["a", "b", "x", "y", "sp", "dp", "db", "pb", "pc", "p", "emulation", "instructions"]

/-- The value of a key that an object has exactly once. -/
def member? (members : List (Option String × Json)) (key : String) : Option Json :=
  match members.filter fun entry => entry.1 == some key with
  | [entry] => some entry.2
  | _ => none

/-- The values of the keys, in their order. No key may be malformed. -/
def values? : Json → Option (List Json)
  | .array items => some items
  | .object members =>
    if members.all fun entry => entry.1.isSome then keys.mapM (member? members) else none
  | _ => none

/-- The snapshot with the given values. -/
def ofValues? : List Json → Option Snapshot
  | [a, b, x, y, sp, dp, db, pb, pc, p, emulation, instructions] => do
    let byte (value : Json) := (value.natural? UInt8.size).map UInt8.ofNat
    let word (value : Json) := (value.natural? UInt16.size).map UInt16.ofNat
    pure {
      a := ← word a
      b := ← byte b
      x := ← word x
      y := ← word y
      sp := ← word sp
      dp := ← word dp
      db := ← byte db
      pb := ← byte pb
      pc := ← word pc
      p := ← byte p
      emulation := ← emulation.truth?
      instructions := ← (instructions.natural? UInt64.size).map UInt64.ofNat }
  | _ => none

/-- The snapshot that a JSON text stands for. -/
def read? (text : String) : Option Snapshot := do
  let json ← Json.read? text
  let values ← values? json
  ofValues? values

end W65C816.Snapshot
