import W65C816.Interpreter.Basic
import W65C816.Text.Numeral

/-!
# Options of the command line

What the command line and the environment ask for. An option of the command line that is missing
or cannot be read gives way to the environment, and that to a default. When an option is given
twice, the last one counts, even if it cannot be read.
-/

set_option autoImplicit false

namespace W65C816.CommandLine

open Text

/-- What the tool is to do. -/
structure Options where
  image : String
  load : UInt32
  start : UInt32
  /-- The number of instructions to carry out, if any are to be. -/
  run : Option Nat
  native : Bool
deriving DecidableEq, Repr

/-- What the arguments alone say. -/
structure Arguments where
  image : Option String := none
  load : Option UInt32 := none
  start : Option UInt32 := none
  run : Option UInt32 := none
  native : Bool := false

namespace Arguments

/-- Reads the arguments from left to right. Whatever is not an option names the image, and the first
name counts. -/
def read (arguments : Arguments) : List String → Arguments
  | [] => arguments
  | "--native" :: rest => read { arguments with native := true } rest
  | "--load" :: value :: rest => read { arguments with load := Numeral.address? value } rest
  | "--start" :: value :: rest => read { arguments with start := Numeral.address? value } rest
  | "--run" :: value :: rest => read { arguments with run := Numeral.address? value } rest
  | ["--load"] => { arguments with load := none }
  | ["--start"] => { arguments with start := none }
  | ["--run"] => { arguments with run := none }
  | path :: rest => read { arguments with image := arguments.image.or (some path) } rest

end Arguments

/-- The variables of the environment. -/
abbrev Environment := String → Option String

namespace Environment

/-- The address or count that a variable holds. -/
def address? (environment : Environment) (name : String) : Option UInt32 :=
  (environment name).bind Numeral.address?

/-- Whether a variable switches something on. -/
def isOn (environment : Environment) (name : String) : Bool :=
  match environment name with
  | some value => ["1", "true", "TRUE", "on", "ON"].contains value
  | none => false

/-- The configuration of the interpreter that the environment asks for. -/
def config (environment : Environment) : Config where
  policy := if environment.isOn "CPU_RETHROW" then .propagate else .record
  verbose := environment.isOn "CPU_TRACE"
  history :=
    ((environment "CPU_TRACE_HISTORY").bind fun value =>
      Numeral.read? 10 UInt64.size value.toList).getD 0

end Environment

/-- The options that the arguments and the environment amount to, unless no image is named. -/
def Options.read? (environment : Environment) (arguments : List String) : Option Options :=
  let given := Arguments.read {} arguments
  given.image.map fun image =>
    let load := (given.load.or (environment.address? "DISASM_LOAD")).getD 0
    { image
      load
      start := (given.start.or (environment.address? "DISASM_START")).getD load
      run := (given.run.or (environment.address? "DISASM_RUN")).map UInt32.toNat
      native := given.native }

end W65C816.CommandLine
