import W65C816.Catalog.Standard
import W65C816.CommandLine.Options
import W65C816.Interpreter.Reentry
import W65C816.Program.Disassembly
import W65C816.Registers.Snapshot
import W65C816.Text.Quoted

/-!
# The listing tool

The tool lists the instructions of an image and, if it is asked to, carries some of them out and
shows the registers. All that it prints, and the code that it exits with, is a function of the
options, the environment and the image.

The image is loaded into a memory that is just large enough, and the listing is made in a view that
ends where the image ends, so that nothing behind the image is listed. Execution sees all of the
memory.
-/

set_option autoImplicit false

namespace W65C816.CommandLine

open Text

/-- What the tool leaves behind. -/
structure Report where
  code : UInt8 := 0
  output : String := ""
  errors : String := ""
deriving DecidableEq, Repr

namespace Report

def print (report : Report) (line : String) : Report :=
  { report with output := report.output ++ line ++ "\n" }

def warn (report : Report) (line : String) : Report :=
  { report with errors := report.errors ++ line ++ "\n" }

/-- Ends with a line on the standard error. -/
def fail (report : Report) (code : UInt8) (line : String) : Report :=
  { report.warn line with code }

/-- The report when no image is named. -/
def usage : Report :=
  fail {} 2 "usage: disasm <image> [--load addr] [--start addr] [--run n] [--native]"

/-- The report when the image cannot be read. -/
def unreadable (path why : String) : Report :=
  fail {} 1 ("failed to read " ++ Quoted.quote path ++ ": " ++ why)

end Report

/-- The least size of the memory. -/
def defaultMemorySize : Nat := 0x20000

/-- The memory with the image loaded. -/
def loadImage (options : Options) (image : ByteArray) : Except Fault Memory := do
  let memory ← Memory.create (max defaultMemorySize (options.load.toNat + image.size))
  memory.load options.load.toNat image

/-- The walk through the image. The widths start as they are after a reset, and only native code
changes them. -/
def listingWalk (options : Options) (view : View) : Disassembler where
  table := .standard
  bus := .flat view
  offset := options.load
  follow := true
  emulation := !options.native

/-- Lists the instructions of the image. -/
def list (options : Options) (view : View) (report : Report) : Report :=
  let found := (listingWalk options view).run
  let report := found.records.foldl (fun report record => report.print record.line) report
  match found.fault with
  | some fault => report.warn ("disassembly stopped: " ++ fault.message)
  | none => report

/-- Carries out up to `count` instructions, the first one at the start address. It ends early when
an instruction fails or halts the processor. -/
def runSteps : Nat → Option UInt32 → Call Unit
  | 0, _ => pure ()
  | count + 1, start => fun interpreter =>
    match Interpreter.runOnce start interpreter with
    | .error failure interpreter => .error failure interpreter
    | .ok none interpreter => .ok () interpreter
    | .ok (some _) interpreter =>
      if interpreter.registers.halt?.isSome then .ok () interpreter
      else runSteps count none interpreter

/-- The message of a failure. No hooks are registered, so none panics. -/
def failureMessage : Failure → String
  | .fault fault => fault.message
  | .panic => Fault.message (.invalidOperation .workerPanicked)

/-- Executes the image and shows the registers. -/
def execute (options : Options) (config : Config) (count : Nat) (memory : Memory)
    (report : Report) : Report :=
  let registers : Registers := {}
  let registers := if options.native then registers.enterNative else registers
  let core : Core := { registers, bus := .flat (.whole memory) }
  match runSteps count (some options.start) (.create core .standard config) with
  | .error failure _ => report.fail 1 (failureMessage failure)
  | .ok _ interpreter =>
    let report :=
      match interpreter.lastError with
      | some fault => report.warn ("stopped on error: " ++ fault.message)
      | none => report
    report.print interpreter.registers.snapshot.indentedJson

/-- Lists an image and executes it if that is asked for. -/
def process (options : Options) (config : Config) (image : ByteArray) : Report :=
  match loadImage options image with
  | .error fault => Report.fail {} 1 fault.message
  | .ok memory =>
    match View.window memory 0 (options.load.toNat + max image.size 1) with
    | .error fault => Report.fail {} 1 fault.message
    | .ok view =>
      let report := list options view {}
      match options.run with
      | some count => execute options config count memory report
      | none => report

/-- The report on an image that was read, or that could not be read for the given reason. -/
def Report.ofImage (environment : Environment) (options : Options) :
    Except String ByteArray → Report
  | .ok image => process options environment.config image
  | .error why => Report.unreadable options.image why

end W65C816.CommandLine
