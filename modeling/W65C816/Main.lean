import W65C816.CommandLine.FileTree
import W65C816.CommandLine.Listing

/-!
# The command line

Reads the arguments, the environment and the image, and prints what the listing tool reports.
-/

set_option autoImplicit false

namespace W65C816.CommandLine

/-- The variables that the tool looks at. -/
def environmentNames : List String :=
  ["DISASM_LOAD", "DISASM_START", "DISASM_RUN", "CPU_RETHROW", "CPU_TRACE", "CPU_TRACE_HISTORY"]

/-- Those variables in the environment of the process. -/
def currentEnvironment : IO Environment := do
  let values ← environmentNames.mapM fun name => do
    let value ← IO.getEnv name
    pure (name, value)
  pure fun name => (values.lookup name).join

/-- Why an image cannot be read. The number of an error may come with its sign changed. -/
def readFailure? : IO.Error → Option ReadFailure
  | .noFileOrDirectory _ code _ | .permissionDenied _ code _ | .inappropriateType _ code _
  | .invalidArgument _ code _ => ReadFailure.ofCode? (min code (0 - code)).toNat
  | _ => none

/-- Reads an image, or tells why it cannot be read. -/
def readImage (path : String) : IO (Except String ByteArray) := do
  try
    let image ← IO.FS.readBinFile path
    pure (.ok image)
  catch failure =>
    match readFailure? failure with
    | some failure => pure (.error failure.message)
    | none => pure (.error (toString failure))

end W65C816.CommandLine

open W65C816.CommandLine in
def main (arguments : List String) : IO UInt32 := do
  let environment ← currentEnvironment
  let report ←
    match Options.read? environment arguments with
    | none => pure Report.usage
    | some options => do
      let image ← readImage options.image
      pure (Report.ofImage environment options image)
  IO.print report.output
  IO.eprint report.errors
  pure report.code.toUInt32
