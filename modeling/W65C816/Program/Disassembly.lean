import W65C816.Catalog.Table
import W65C816.Registers.Flags

/-!
# Disassembly

A disassembler walks a bus one instruction at a time, each beginning where the one before it ended.
It stops at the end of the view and at the first instruction that cannot be read. It may follow the
width changes that it passes, so that later constants are read at the width that the program
selected; emulation mode has no widths to change.

Each instruction moves the disassembler forward by at least a byte, which bounds the walk by the
bytes that are left.
-/

set_option autoImplicit false

namespace W65C816

/-- The widths behind an instruction that changes them. -/
def Widths.after (widths : Widths) (record : Record) : Widths :=
  let bits := Flags.ofByte (Address.low record.operands.first)
  match record.instruction.opcode with
  | .rep =>
    { memory := if bits.memory8 then .word else widths.memory
      index := if bits.index8 then .word else widths.index }
  | .sep =>
    { memory := if bits.memory8 then .byte else widths.memory
      index := if bits.index8 then .byte else widths.index }
  | _ => widths

/-- A walk through the instructions of a bus. -/
structure Disassembler where
  table : DispatchTable
  bus : Bus
  /-- Where the next instruction begins. -/
  offset : UInt32
  /-- The widths under which the next instruction is read. -/
  widths : Widths := {}
  follow : Bool := false
  emulation : Bool := false
  /-- Whether an instruction could not be read. -/
  failed : Bool := false

/-- What a walk came upon. -/
structure Disassembly where
  records : Array Record
  /-- Why the walk ended before the end of the view, if it did. -/
  fault : Option Fault
  final : Disassembler

namespace Disassembler

def isDone (walk : Disassembler) : Bool :=
  walk.failed || walk.bus.length ≤ walk.offset.toNat

/-- The walk behind an instruction. -/
def pass (walk : Disassembler) (record : Record) : Disassembler :=
  { walk with
    offset := record.next
    widths :=
      if walk.follow && !walk.emulation then walk.widths.after record else walk.widths }

/-- The next instruction or the reason why it cannot be read, and the walk behind it. -/
def next? (walk : Disassembler) : Option (Except Fault Record × Disassembler) :=
  if walk.isDone then none
  else
    match walk.table.decodeAt walk.bus walk.offset walk.widths with
    | .ok record => some (.ok record, walk.pass record)
    | .error fault => some (.error fault, { walk with failed := true })

/-- A record takes the walk forward on the same bus, from an offset before its end. This is what
makes a walk end. -/
theorem offset_lt_of_next? {walk next : Disassembler} {record : Record}
    (h : walk.next? = some (.ok record, next)) :
    next.bus = walk.bus ∧ walk.offset.toNat < walk.bus.length ∧
      walk.offset.toNat < next.offset.toNat := by
  unfold next? at h
  split at h
  · cases h
  · next more =>
    have inside : walk.offset.toNat < walk.bus.length := by
      simp [isDone] at more
      exact more.2
    split at h
    · next found decoded =>
      simp only [Option.some.injEq, Prod.mk.injEq, Except.ok.injEq] at h
      obtain ⟨rfl, rfl⟩ := h
      refine ⟨rfl, inside, ?_⟩
      obtain ⟨here, short⟩ := DispatchTable.offset_of_decodeAt decoded
      have bound : walk.bus.length ≤ Memory.greatestSize :=
        Nat.le_trans (Nat.le_of_add_left_le walk.bus.view.end_le) walk.bus.memory.size_le
      simp only [Memory.greatestSize] at bound
      simp only [pass, Record.next, Record.length, UInt32.toNat_add, here]
      have : (UInt32.ofNat (1 + found.operands.length)).toNat = 1 + found.operands.length := by
        simp
        omega
      omega
    · cases h

/-- Walks on to the end. -/
def walkOn (walk : Disassembler) (records : Array Record) : Disassembly :=
  match _h : walk.next? with
  | none => { records, fault := none, final := walk }
  | some (.error fault, next) => { records, fault := some fault, final := next }
  | some (.ok record, next) => walkOn next (records.push record)
termination_by walk.bus.length - walk.offset.toNat
decreasing_by
  have ⟨same, inside, forward⟩ := offset_lt_of_next? _h
  rw [same]
  omega

/-- A walk that has nothing more to list ends with what it has. -/
theorem walkOn_of_end {walk : Disassembler} (h : walk.next? = none) (records : Array Record) :
    walk.walkOn records = { records, fault := none, final := walk } := by
  rw [walkOn]
  split
  · rfl
  · next h' => cases h.symm.trans h'
  · next h' => cases h.symm.trans h'

/-- A walk ends at its first fault. -/
theorem walkOn_of_fault {walk next : Disassembler} {fault : Fault}
    (h : walk.next? = some (.error fault, next)) (records : Array Record) :
    walk.walkOn records = { records, fault := some fault, final := next } := by
  rw [walkOn]
  split
  · next h' => cases h.symm.trans h'
  · next h' =>
    cases h.symm.trans h'
    rfl
  · next h' => cases h.symm.trans h'

/-- A walk goes on after each record. -/
theorem walkOn_of_record {walk next : Disassembler} {record : Record}
    (h : walk.next? = some (.ok record, next)) (records : Array Record) :
    walk.walkOn records = next.walkOn (records.push record) := by
  rw [walkOn]
  split
  · next h' => cases h.symm.trans h'
  · next h' => cases h.symm.trans h'
  · next h' =>
    cases h.symm.trans h'
    rfl

/-- Every instruction up to the end. -/
def run (walk : Disassembler) : Disassembly :=
  walk.walkOn #[]

end Disassembler

/-- Every instruction from an offset to the end of the view, under fixed widths. -/
def DispatchTable.decodeAll (table : DispatchTable) (bus : Bus) (start : UInt32)
    (widths : Widths) : Except Fault (List Record) :=
  let found := Disassembler.run { table, bus, offset := start, widths }
  match found.fault with
  | some fault => .error fault
  | none => .ok found.records.toList

end W65C816
