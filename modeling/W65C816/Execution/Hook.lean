import W65C816.Instruction.Basic
import W65C816.Registers.Basic

/-!
# Instrumentation hooks

A hook is called by `WDM` with the slot it lies in, the instruction, and the registers with every
earlier instruction carried out. It answers with a reaction: it may call the interpreter again, ask
for the run to be cancelled, or panic. What it answers may depend on how often it was called and on
what it sees.

Slots are given out first free first, and a slot belongs to its hook until it is removed. The slot
number in an instruction is one more than the index, so that zero calls nothing.
-/

set_option autoImplicit false

namespace W65C816

def hookSlots : Nat := 254

/-- What a hook sees when it is called. -/
structure Sighting where
  /-- The slot number, one more than the index of the slot. -/
  slot : UInt8
  instruction : Instruction
  registers : Registers
deriving DecidableEq, Repr

/-- What a hook does when it is called. -/
structure Reaction where
  /-- It asks for the run to be cancelled. -/
  cancel : Bool := false
  /-- It calls the interpreter that is calling it, for one instruction and then for a run, unless it
  is told that the interpreter is idle. -/
  reenter : Bool := false
  /-- It panics, after everything else. -/
  panic : Bool := false
deriving DecidableEq, Repr

/-- Something to be called by `WDM`. -/
structure Hook where
  /-- The name under which its calls are logged. -/
  tag : Option String := none
  logged : Bool := true
  calls : Nat := 0
  /-- What it does on a call, counted from one. -/
  react : Nat → Sighting → Reaction := fun _ _ => {}

/-- The slots for hooks. -/
structure HookTable where
  slots : Vector (Option Hook) hookSlots := Vector.replicate hookSlots none

namespace HookTable

/-- The hook in a slot. -/
def get? (table : HookTable) (index : Nat) : Option Hook :=
  if h : index < hookSlots then table.slots[index] else none

/-- Puts a hook into a slot or empties it. There is nothing beyond the slots. -/
def put (table : HookTable) (index : Nat) (hook : Option Hook) : HookTable :=
  match table with
  | ⟨slots⟩ => if h : index < hookSlots then ⟨slots.set index hook⟩ else ⟨slots⟩

/-- The index of the first empty slot. -/
def firstFree? (table : HookTable) : Option (Fin hookSlots) :=
  table.slots.findFinIdx? Option.isNone

/-- Puts a hook into the first empty slot and yields its index. -/
def register (hook : Hook) : EStateM Fault HookTable Nat := fun table =>
  match table.firstFree? with
  | some index => .ok index (table.put index (some hook))
  | none => .error (.invalidOperation (.hooksExhausted hookSlots)) table

def isRegistered (table : HookTable) (index : Nat) : Bool :=
  (table.get? index).isSome

def registered (table : HookTable) : Nat :=
  table.slots.countP Option.isSome

/-- Empties a slot, and tells whether there was a hook in it. -/
def remove (index : Nat) (table : HookTable) : Bool × HookTable :=
  (table.isRegistered index, table.put index none)

def clear (_table : HookTable) : HookTable := {}

/-- An update shows in its own slot and in no other. -/
theorem get?_put (table : HookTable) (index : Nat) (hook : Option Hook) (i : Nat) :
    (table.put index hook).get? i =
      if i = index ∧ index < hookSlots then hook else table.get? i := by
  unfold put get?
  by_cases inside : index < hookSlots
  · by_cases same : index = i
    · subst same; simp [inside]
    · simp [inside, Ne.symm same, same]
  · simp [inside]

end HookTable

end W65C816
