import W65C816.Trace.Buffer

/-!
# Journals

A journal takes down the instructions that are about to be carried out. If it is verbose it reports
each of them on a line, with the registers before it; and it keeps the latest of them in a buffer,
if that keeps anything. Nothing reads a report again, and nothing but the buffer depends on what
was taken down.
-/

set_option autoImplicit false

namespace W65C816.Trace

/-- What is taken down of the instructions that are carried out. -/
structure Journal where
  /-- Whether each instruction is reported. -/
  verbose : Bool
  /-- The lines that were reported, the latest one last. -/
  reports : Array String
  buffer : Buffer

namespace Journal

/-- A journal in which nothing was taken down. -/
def blank (verbose : Bool) (history : Nat) : Journal where
  verbose
  reports := #[]
  buffer := .empty history

/-- The line that reports an instruction. -/
def report (record : Record) (r : Registers) : String :=
  record.line ++ " | " ++ r.snapshot.line

/-- Takes down an instruction and the registers before it. -/
def note (journal : Journal) (record : Record) (r : Registers) : Journal :=
  match journal with
  | ⟨verbose, reports, buffer⟩ =>
    { verbose
      reports := if verbose then reports.push (report record r) else reports
      buffer := if buffer.isEnabled then buffer.push (.ofRecord record r) else buffer }

end Journal

end W65C816.Trace
