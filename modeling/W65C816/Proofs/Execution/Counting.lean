import W65C816.Proofs.Execution.Machine

/-!
# Instructions are counted once

No effect touches the count of instructions, so leaving it alone is a law. A step counts after
everything else, which makes the count one more when the step succeeds and leaves it alone when the
step fails, wherever it fails.
-/

set_option autoImplicit false

namespace W65C816

open Addressing

namespace Registers

/-- A count that does not reach its greatest value has grown by as much as was counted. -/
theorem toNat_instructions {r s : Registers} {gain : Nat}
    (counted : s.instructions = r.instructions + UInt64.ofNat gain)
    (room : r.instructions.toNat + gain < UInt64.size) :
    s.instructions.toNat = r.instructions.toNat + gain := by
  have fits : gain < UInt64.size := by omega
  rw [counted, UInt64.toNat_add, UInt64.toNat_ofNat_of_lt' fits, Nat.mod_eq_of_lt room]

/-- Setting the accumulator counts no instruction. -/
@[simp] theorem instructions_setC (r : Registers) (value : UInt16) :
    (r.setC value).instructions = r.instructions := by
  unfold setC
  split <;> rfl

/-- Setting N and Z counts no instruction. -/
@[simp] theorem instructions_setNZ (r : Registers) (width : Width) (value : UInt16) :
    (r.setNZ width value).instructions = r.instructions := rfl

end Registers

namespace Machine

variable {α β : Type}

/-- The action counts `gain` instructions if it succeeds, and none if it fails. -/
def Counts (gain : UInt64) (action : MachineAction α) : Prop :=
  ∀ machine, match action machine with
    | .ok _ next => next.registers.instructions = machine.registers.instructions + gain
    | .error _ next => next.registers.instructions = machine.registers.instructions

/-- What comes before the counting may fail, and then nothing is counted. -/
theorem Counts.bind {gain : UInt64} {first : MachineAction α} {rest : α → MachineAction β}
    (hfirst : Counts 0 first) (hrest : ∀ value, Counts gain (rest value)) :
    Counts gain (first >>= rest) := by
  intro machine
  have h := hfirst machine
  rw [Action.bind_apply]
  cases found : first machine with
  | ok value next =>
    rw [found] at h
    have hnext : next.registers.instructions = machine.registers.instructions :=
      h.trans (UInt64.add_zero _)
    have hlast := hrest value next
    rw [hnext] at hlast
    exact hlast
  | error failure next =>
    rw [found] at h
    exact h

end Machine

end W65C816
