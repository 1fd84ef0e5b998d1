import W65C816.Execution.Hook
import W65C816.Program.Encoding

/-!
# Assembly

An assembler writes instructions one behind another and registers hooks together with the
instructions that call them. A hook is registered only if its instruction can be written.
`Assembler.assemble` writes a list of items up to the first one that fails and tells how far it
came.
-/

set_option autoImplicit false

namespace W65C816

open Addressing

/-- Something to be assembled. -/
inductive Item where
  | implied (opcode : Opcode)
  | constant8 (opcode : Opcode) (value : UInt8)
  | constant16 (opcode : Opcode) (value : UInt16)
  /-- An operation in a mode that fixes the width of its operand. -/
  | operation (opcode : Opcode) (mode : Mode) (operand : UInt32)
  | blockMove (opcode : Opcode) (source destination : UInt8)
  /-- A hook and the instruction that calls it. -/
  | hook (hook : Hook)

/-- What an assembler works on, and where the next instruction goes. -/
structure Assembler where
  table : DispatchTable
  bus : Bus
  hooks : HookTable
  offset : UInt32

namespace Assembler

/-- Writes an instruction at the offset and moves on. -/
def write (request : WriteRequest) : EStateM Fault Assembler Unit
  | ⟨table, bus, hooks, offset⟩ =>
    match table.write offset request bus with
    | .ok next bus => .ok () ⟨table, bus, hooks, next⟩
    | .error fault bus => .error fault ⟨table, bus, hooks, offset⟩

/-- The request for the instruction that calls the hook in a slot. -/
def hookRequest (index : Nat) : WriteRequest where
  opcode := .wdm
  mode := .immediate
  width := .byte
  first := UInt32.ofNat (index + 1)

/-- Registers a hook and writes the instruction that calls it. Yields the index of the slot. -/
def writeHook (hook : Hook) : EStateM Fault Assembler Nat
  | ⟨table, bus, hooks, offset⟩ =>
    match HookTable.register hook hooks with
    | .error fault hooks => .error fault ⟨table, bus, hooks, offset⟩
    | .ok index hooks =>
      match write (hookRequest index) ⟨table, bus, hooks, offset⟩ with
      | .ok _ assembler => .ok index assembler
      | .error fault ⟨table, bus, hooks, offset⟩ =>
        .error fault ⟨table, bus, (hooks.remove index).2, offset⟩

/-- The request that an item stands for, unless it is a hook. -/
def request (opcode : Opcode) (mode : Mode) (operand : UInt32) : Except Fault WriteRequest :=
  match mode.operandLength?.bind OperandWidth.ofLength? with
  | some width => .ok { opcode, mode, width, first := operand }
  | none => .error (.notSupported mode .writtenWidth)

/-- Writes an item. Yields the index of the slot if the item is a hook. -/
def emit (item : Item) : EStateM Fault Assembler (Option Nat) :=
  match item with
  | .implied opcode => do
    write { opcode, mode := .implied, width := .none }
    pure none
  | .constant8 opcode value => do
    write { opcode, mode := .immediate, width := .byte, first := value.toUInt32 }
    pure none
  | .constant16 opcode value => do
    write { opcode, mode := .immediate, width := .word, first := value.toUInt32 }
    pure none
  | .operation opcode mode operand =>
    match request opcode mode operand with
    | .ok request => do
      write request
      pure none
    | .error fault => throw fault
  | .blockMove opcode source destination => do
    write {
      opcode
      mode := .blockMove
      width := .word
      first := source.toUInt32
      second := destination.toUInt32 }
    pure none
  | .hook hook => do
    let index ← writeHook hook
    pure (some index)

/-- How far an assembly came. -/
structure Report where
  /-- The offset after each item that was tried. -/
  offsets : List UInt32
  /-- The slots of the hooks that were registered. -/
  slots : List Nat
  /-- Why the last item that was tried failed, if it did. -/
  fault : Option Fault
deriving DecidableEq, Repr

/-- Writes the items up to the first that fails. -/
def assemble : List Item → Assembler → Report × Assembler
  | [], assembler => ({ offsets := [], slots := [], fault := none }, assembler)
  | item :: rest, assembler =>
    match emit item assembler with
    | .error fault assembler =>
      ({ offsets := [assembler.offset], slots := [], fault := some fault }, assembler)
    | .ok slot assembler =>
      let offset := assembler.offset
      let (report, assembler) := assemble rest assembler
      ({ report with
          offsets := offset :: report.offsets
          slots := slot.toList ++ report.slots }, assembler)

end Assembler

end W65C816
