import W65C816.Proofs.Program.Walk

/-!
# When a walk is over before it begins

A walk takes the view to be exhausted when its position is no less than the length of the view.
Positions of a flat view count its bytes, so nothing can be read there. Positions of a banked view
are addresses, and the bytes behind most of them are within reach although the address is beyond the
length: an instruction there can be decoded, and a walk from there finds none.

So a walk begins with what can be decoded exactly when it begins at a position less than the length:
`begins_with_decoded_iff`.
-/

set_option autoImplicit false

namespace W65C816

/-- On a flat view the positions that can be read are those below the length. -/
theorem Bus.exists_read8_flat_iff (view : View) (position : UInt32) :
    (∃ byte, (Bus.flat view).read8 position = .ok byte) ↔ position.toNat < view.length := by
  constructor
  · rintro ⟨byte, read⟩
    exact ((View.read8_eq_ok_iff view position byte).mp read).1
  · intro inside
    exact ⟨_, (View.read8_eq_ok_iff view position _).mpr ⟨inside, rfl, trivial⟩⟩

namespace Disassembler

variable {walk : Disassembler}

/-- A walk that has not failed goes on while its position is less than the length. -/
theorem isDone_eq_false_iff (going : walk.failed = false) :
    walk.isDone = false ↔ walk.offset.toNat < walk.bus.length := by
  rw [isDone, going, Bool.false_or, decide_eq_false_iff_not, Nat.not_le]

/-- As long as it has not failed a walk has nothing more to list just if it is at the end of the
bus. -/
theorem next?_eq_none_iff (going : walk.failed = false) :
    walk.next? = none ↔ walk.bus.length ≤ walk.offset.toNat := by
  constructor
  · exact done_of_next? going
  · intro done
    rw [next?, if_pos]
    rw [isDone, going, Bool.false_or, decide_eq_true_iff]
    exact done

/-- What can be decoded is the next item of a walk exactly when the walk is not over. -/
theorem next?_eq_record_iff (going : walk.failed = false) {record : Record}
    (read : walk.table.decodeAt walk.bus walk.offset walk.widths = .ok record) :
    walk.next? = some (.ok record, walk.pass record) ↔ walk.offset.toNat < walk.bus.length := by
  constructor
  · exact fun h => (going_of_next? h).2
  · intro inside
    rw [next?_of_going ((isDone_eq_false_iff going).mpr inside), read]

/-- A walk comes upon nothing exactly when it is over before it begins. -/
theorem items_run_eq_nil_iff : walk.run.items = [] ↔ walk.next? = none := by
  constructor
  · intro nothing
    have yields := walk.yields_run
    rw [nothing] at yields
    have ended := walk.completes_run.ended
    generalize walk.run.final = final at yields ended
    cases yields with
    | nil _ => exact ended
  · exact (Yields.nil walk).items_run

end Disassembler

/-- Nothing is decoded exactly when the walk comes upon nothing. -/
theorem DispatchTable.decodeAll_eq_nil_iff (table : DispatchTable) (bus : Bus) (start : UInt32)
    (widths : Widths) : table.decodeAll bus start widths = .ok [] ↔
      (Disassembler.run { table, bus, offset := start, widths }).items = [] := by
  unfold DispatchTable.decodeAll Disassembly.items
  generalize Disassembler.run { table, bus, offset := start, widths } = found
  obtain ⟨records, fault, final⟩ := found
  cases fault with
  | none => simp
  | some fault => simp

/-- When a disassembly lists what can be decoded at its start. If an instruction can be decoded
there, then it is the first item of a walk exactly when the start is less than the length of the
view, whatever the walk follows; and decoding everything from there comes upon something under the
same condition. A start on a flat view meets it if an instruction can be decoded there, or if only
the leading byte can be read. -/
theorem begins_with_decoded_iff (table : DispatchTable) (bus : Bus) (start : UInt32)
    (widths : Widths) :
    (∀ record, table.decodeAt bus start widths = .ok record → ∀ follow emulation,
        let walk : Disassembler := { table, bus, offset := start, widths, follow, emulation }
        walk.next? = some (.ok record, walk.pass record) ↔ start.toNat < bus.length) ∧
      (table.decodeAll bus start widths ≠ .ok [] ↔ start.toNat < bus.length) ∧
      ∀ view, bus = .flat view →
        (∀ byte, bus.read8 start = .ok byte → start.toNat < bus.length) ∧
          ∀ record, table.decodeAt bus start widths = .ok record →
            start.toNat < bus.length := by
  refine ⟨fun record read follow emulation => ?_, ?_, ?_⟩
  · intro walk
    have going : walk.failed = false := rfl
    exact Disassembler.next?_eq_record_iff going read
  · let walk : Disassembler := { table, bus, offset := start, widths }
    have ended : walk.next? = none ↔ bus.length ≤ start.toNat :=
      Disassembler.next?_eq_none_iff rfl
    rw [ne_eq, DispatchTable.decodeAll_eq_nil_iff, Disassembler.items_run_eq_nil_iff, ended,
      Nat.not_le]
  · rintro view rfl
    have inside (byte : UInt8) (read : (Bus.flat view).read8 start = .ok byte) :
        start.toNat < view.length :=
      (Bus.exists_read8_flat_iff view start).mp ⟨byte, read⟩
    refine ⟨inside, fun record read => ?_⟩
    exact inside _ (DispatchTable.read8_of_decodeAt read)

/-- A byte of the working memory can be decoded at its mirror in bank 0, and is listed from there,
because the address is less than the length. -/
theorem begins_with_decoded_mirror :
    let table : DispatchTable :=
      { registry := [], admissible := ⟨by decide, by decide⟩
        entries := .ofFn fun i => Registry.entry [] (.ofNat i), entries_eq := rfl }
    let bus := Bus.banked (.whole Memory.least)
    let walk : Disassembler := { table, bus, offset := 0x100 }
    let record : Record := { offset := 0x100, instruction := .invalid 0, operands := {} }
    table.decodeAt bus 0x100 {} = .ok record ∧
      walk.next? = some (.ok record, walk.pass record) ∧ table.decodeAll bus 0x100 {} ≠ .ok [] := by
  intro table bus walk record
  have read : table.decodeAt bus 0x100 {} = .ok record := by decide +kernel
  have inside : (0x100 : UInt32).toNat < bus.length := by decide +kernel
  obtain ⟨first, lists, -⟩ := begins_with_decoded_iff table bus 0x100 {}
  exact ⟨read, (first record read false false).mpr inside, lists.mpr inside⟩

/-- The same byte can be decoded at its own address, and nothing is listed from there, neither by a
walk nor when everything is decoded. -/
theorem not_begins_with_decoded :
    let table : DispatchTable :=
      { registry := [], admissible := ⟨by decide, by decide⟩
        entries := .ofFn fun i => Registry.entry [] (.ofNat i), entries_eq := rfl }
    let bus := Bus.banked (.whole Memory.least)
    let walk : Disassembler := { table, bus, offset := 0x7E0100 }
    let record : Record := { offset := 0x7E0100, instruction := .invalid 0, operands := {} }
    table.decodeAt bus 0x7E0100 {} = .ok record ∧
      walk.next? = none ∧ table.decodeAll bus 0x7E0100 {} = .ok [] := by
  intro table bus walk record
  have read : table.decodeAt bus 0x7E0100 {} = .ok record := by decide +kernel
  have beyond : bus.length ≤ (0x7E0100 : UInt32).toNat := by decide +kernel
  have ended : walk.next? = none := (Disassembler.next?_eq_none_iff rfl).mpr beyond
  refine ⟨read, ended, ?_⟩
  exact (table.decodeAll_eq_nil_iff bus 0x7E0100 {}).mpr
    (Disassembler.items_run_eq_nil_iff.mpr ended)

end W65C816
