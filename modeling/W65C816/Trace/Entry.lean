import W65C816.Instruction.Record
import W65C816.Registers.Snapshot

/-!
# Trace entries

An entry of a trace is an instruction that was about to be carried out: where it was found, its
leading byte, its text, and the registers before it.
-/

set_option autoImplicit false

namespace W65C816.Trace

open Text

/-- An instruction that was about to be carried out, and the registers before it. -/
structure Entry where
  offset : UInt32
  code : UInt8
  text : String
  registers : Snapshot
deriving DecidableEq, Repr

namespace Entry

/-- The entry of a decoded instruction. -/
def ofRecord (record : Record) (r : Registers) : Entry where
  offset := record.offset
  code := record.instruction.code
  text := record.text
  registers := r.snapshot

/-- The text with as many blanks behind it as it takes to fill `width` places. -/
def column (width : Nat) (text : String) : String :=
  text ++ String.ofList (List.replicate (width - text.length) ' ')

def line (entry : Entry) : String :=
  Hexadecimal.padded 2 entry.registers.pb.toNat ++ ":" ++
    Hexadecimal.padded 4 entry.registers.pc.toNat ++ ": " ++ column 16 entry.text ++ " | " ++
    entry.registers.line

/-- The entry as a JSON object on one line. -/
def json (entry : Entry) : String :=
  Json.Layout.compact
    [("offset", toString entry.offset.toNat), ("opcode", toString entry.code.toNat),
     ("text", Json.Layout.quoted entry.text), ("registers", entry.registers.json)]

end Entry

end W65C816.Trace
