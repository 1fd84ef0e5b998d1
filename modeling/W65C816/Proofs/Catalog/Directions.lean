import Mathlib.Data.List.FinRange
import W65C816.Proofs.Program.Encoding

/-!
# The two directions of a dispatch table

A table leads from leading bytes to instructions, and by its reverse index from an operation in a
mode back to a leading byte. What the second direction finds is an entry of the first one, and both
have what was registered: the instructions among the entries are the registered ones in the order of
their bytes, `DispatchTable.perm_registry`, and among several registrations of an operation in a
mode the reverse index has the first.

The encoder needs the second direction. `DispatchTable.Represents` says which instruction it finds
for an operation and a mode, and that this instruction comes back when its byte is decoded. It holds
of each table and its registry: `DispatchTable.directions_agree`.
-/

set_option autoImplicit false

namespace W65C816

open Addressing

/-! ## Registries -/

/-- A registry is admissible exactly if its leading bytes are distinct and it has no stand-in. -/
theorem Registry.admissible_iff (registry : Registry) :
    registry.Admissible ↔ (registry.map Instruction.code).Nodup ∧
      ∀ instruction ∈ registry, instruction.opcode ≠ .invalid := by
  have distinct : registry.Pairwise (fun i j => i.code ≠ j.code) ↔
      (registry.map Instruction.code).Nodup := by
    rw [List.Nodup, List.pairwise_map]
  have valid (instruction : Instruction) :
      instruction.isValid = true ↔ instruction.opcode ≠ .invalid := bne_iff_ne
  simp only [Admissible, distinct, valid, and_comm]

namespace DispatchTable

variable {table : DispatchTable} {instruction : Instruction} {opcode : Opcode} {mode : Mode}

/-! ## Entries -/

/-- Different bytes have different entries. -/
theorem nodup_toList (table : DispatchTable) : table.toList.Nodup := by
  have entries : table.toList = List.ofFn fun i : Fin 256 => table.registry.entry (.ofNat i) := by
    rw [toList, table.entries_eq, Vector.toList_ofFn]
  rw [entries, List.nodup_ofFn]
  intro i j same
  have code (i : Fin 256) : (table.registry.entry (.ofNat i)).code = .ofNat i := by
    rw [← get_eq_entry, code_get]
  have bytes : UInt8.ofNat i = UInt8.ofNat j := by
    rw [← code i, ← code j]
    exact congrArg Instruction.code same
  have numbers := congrArg UInt8.toNat bytes
  rw [UInt8.toNat_ofNat', UInt8.toNat_ofNat'] at numbers
  have := i.isLt
  have := j.isLt
  exact Fin.ext (by omega)

/-- Each entry of a table is listed. -/
theorem get_mem_toList (table : DispatchTable) (code : UInt8) : table.get code ∈ table.toList :=
  Vector.mem_toList_iff.mpr (Vector.getElem_mem code.toNat_lt)

/-- The entries that are instructions are the registered ones. -/
theorem mem_toList_iff (valid : instruction.isValid = true) :
    instruction ∈ table.toList ↔ instruction ∈ table.registry := by
  constructor
  · exact fun member => mem_of_mem_toList member valid
  · intro member
    rw [← get_of_mem member]
    exact table.get_mem_toList instruction.code

/-- The instructions among the entries are the registered ones, in the order of their bytes. -/
theorem perm_registry (table : DispatchTable) :
    (table.toList.filter Instruction.isValid).Perm table.registry := by
  have registered : table.registry.Nodup :=
    List.Nodup.of_map _ ((Registry.admissible_iff _).mp table.admissible).1
  refine (List.perm_ext_iff_of_nodup (table.nodup_toList.filter _) registered).mpr ?_
  intro instruction
  rw [List.mem_filter]
  constructor
  · exact fun h => (mem_toList_iff h.2).mp h.1
  · exact fun member => ⟨(mem_toList_iff (valid_of_mem member)).mpr member, valid_of_mem member⟩

/-- A byte under which nothing is registered has a stand-in. -/
theorem get_of_unregistered {code : UInt8}
    (free : ∀ instruction ∈ table.registry, instruction.code ≠ code) :
    table.get code = .invalid code := by
  have none : table.registry.find? (fun instruction => instruction.code = code) = none :=
    List.find?_eq_none.mpr fun instruction member => by simpa using free instruction member
  rw [get_eq_entry, Registry.entry, none, Option.getD_none]

/-- A table counts the instructions of its registry. -/
theorem registered_eq (table : DispatchTable) : table.registered = table.registry.length := by
  rw [registered, List.countP_eq_length_filter, table.perm_registry.length_eq]

/-- The encodings of an operation are its registrations, in the order of their bytes. -/
theorem encodingsOf_perm (table : DispatchTable) (opcode : Opcode) :
    (table.encodingsOf opcode).Perm
      (table.registry.filter fun instruction => instruction.opcode = opcode) := by
  have both : table.encodingsOf opcode =
      (table.toList.filter Instruction.isValid).filter fun i => i.opcode = opcode := by
    rw [encodingsOf, List.filter_filter]
    refine List.filter_congr fun instruction _ => ?_
    rw [Bool.and_comm, beq_eq_decide]
  rw [both]
  exact table.perm_registry.filter _

/-! ## Looking up -/

/-- An encoding that is in the table is what is looked up. -/
theorem lookup_of_find? (found : table.find? opcode mode = some instruction) :
    table.lookup opcode mode = .ok instruction := by
  rw [lookup, found]

/-- The only registration of an operation is found whatever the mode is. -/
theorem lookup_of_only (missing : table.find? opcode mode = none)
    (only : (table.registry.filter fun i => i.opcode = opcode) = [instruction]) :
    table.lookup opcode mode = .ok instruction := by
  have encodings : table.encodingsOf opcode = [instruction] :=
    List.perm_singleton.mp (only ▸ table.encodingsOf_perm opcode)
  rw [lookup, missing, encodings]

/-- An operation that no instruction of the registry has is not registered. -/
theorem lookup_of_absent (absent : ∀ instruction ∈ table.registry, instruction.opcode ≠ opcode)
    (mode : Mode) :
    table.lookup opcode mode = .error (.invalidOperation (.notRegistered opcode)) := by
  have missing : table.find? opcode mode = none := by
    rw [find?_eq]
    refine List.find?_eq_none.mpr fun instruction member => ?_
    simp [absent instruction member]
  have none : (table.registry.filter fun i => i.opcode = opcode) = [] :=
    List.filter_eq_nil_iff.mpr fun instruction member => by simpa using absent instruction member
  have encodings : table.encodingsOf opcode = [] :=
    List.perm_nil.mp (none ▸ table.encodingsOf_perm opcode)
  rw [lookup, missing, encodings]

/-- Of several registrations of an operation none is found in another mode than theirs. -/
theorem lookup_of_several (missing : table.find? opcode mode = none)
    (several : 1 < (table.registry.filter fun i => i.opcode = opcode).length) :
    table.lookup opcode mode = .error (.invalidOperation (.noEncoding opcode mode)) := by
  have count := (table.encodingsOf_perm opcode).length_eq
  rw [lookup, missing]
  rcases encodings : table.encodingsOf opcode with _ | ⟨first, _ | ⟨second, rest⟩⟩
  · rw [encodings, List.length_nil] at count
    omega
  · rw [encodings, List.length_singleton] at count
    omega
  · rfl

/-! ## Agreement -/

/-- The table has what the registry has, in both directions, and an encoder that looks up an
operation in a mode gets the first registration of the two, or else the only one of the operation.
What it gets is what decoding its byte yields. -/
structure Represents (table : DispatchTable) (registry : Registry) : Prop where
  entry : ∀ instruction ∈ registry, table.get instruction.code = instruction
  standIn : ∀ code, (∀ instruction ∈ registry, instruction.code ≠ code) →
    table.get code = .invalid code
  registered : table.registered = registry.length
  found : ∀ opcode mode, table.find? opcode mode =
    registry.find? fun i => i.opcode = opcode ∧ i.mode = mode
  entered : ∀ opcode mode instruction, table.find? opcode mode = some instruction →
    table.get instruction.code = instruction
  exactly : ∀ opcode mode instruction, table.find? opcode mode = some instruction →
    table.lookup opcode mode = .ok instruction
  only : ∀ opcode mode instruction, table.find? opcode mode = none →
    (registry.filter fun i => i.opcode = opcode) = [instruction] →
    table.lookup opcode mode = .ok instruction
  absent : ∀ opcode mode, (∀ instruction ∈ registry, instruction.opcode ≠ opcode) →
    table.lookup opcode mode = .error (.invalidOperation (.notRegistered opcode))
  several : ∀ opcode mode, table.find? opcode mode = none →
    1 < (registry.filter fun i => i.opcode = opcode).length →
    table.lookup opcode mode = .error (.invalidOperation (.noEncoding opcode mode))
  decoded : ∀ opcode mode instruction, table.lookup opcode mode = .ok instruction →
    instruction.opcode = opcode ∧ table.get instruction.code = instruction ∧
      ∀ bus offset widths record, bus.read8 offset = .ok instruction.code →
        table.decodeAt bus offset widths = .ok record → record.instruction = instruction

/-- A table is built exactly from a registry without a stand-in whose leading bytes are distinct,
and then it represents that registry. -/
theorem directions_agree (registry : Registry) :
    ((∃ table, build registry = .ok table) ↔
        (registry.map Instruction.code).Nodup ∧
          ∀ instruction ∈ registry, instruction.opcode ≠ .invalid) ∧
      ∀ table, build registry = .ok table → table.Represents registry := by
  refine ⟨(exists_build_iff registry).trans registry.admissible_iff, fun table built => ?_⟩
  obtain rfl := (build_eq_ok_iff registry table).mp built
  exact {
    entry := fun _ => get_of_mem
    standIn := fun _ => get_of_unregistered
    registered := table.registered_eq
    found := table.find?_eq
    entered := fun opcode mode instruction found => by
      rw [find?_eq] at found
      exact get_of_mem (List.mem_of_find?_eq_some found)
    exactly := fun _ _ _ => lookup_of_find?
    only := fun _ _ _ => lookup_of_only
    absent := fun _ mode absent => lookup_of_absent absent mode
    several := fun _ _ => lookup_of_several
    decoded := fun opcode mode instruction looked => by
      have entry := get_of_mem (mem_of_lookup looked)
      refine ⟨opcode_of_lookup looked, entry, fun bus offset widths record byte decoded => ?_⟩
      rw [instruction_of_decodeAt byte decoded, entry] }

/-- An operation that is registered twice in one mode has the earlier byte there and none in other
modes. An operation that is registered once has its byte in every mode. -/
theorem directions_agree_registered_twice :
    let load : Instruction := ⟨0xB9, .lda, .immediate⟩
    let again : Instruction := ⟨0xA9, .lda, .immediate⟩
    let idle : Instruction := ⟨0xEA, .nop, .implied⟩
    ∃ table, build [load, again, idle] = .ok table ∧ table.registered = 3 ∧
      table.get 0xA9 = again ∧ table.get 0 = .invalid 0 ∧
      table.find? .lda .immediate = some load ∧ table.lookup .lda .immediate = .ok load ∧
      table.lookup .lda .direct = .error (.invalidOperation (.noEncoding .lda .direct)) ∧
      table.lookup .nop .direct = .ok idle ∧
      table.lookup .brk .implied = .error (.invalidOperation (.notRegistered .brk)) := by
  intro load again idle
  obtain ⟨built, represents⟩ := directions_agree [load, again, idle]
  obtain ⟨table, made⟩ := built.mpr (by decide)
  have h := represents table made
  have first : table.find? .lda .immediate = some load := h.found .lda .immediate
  have missing : table.find? .lda .direct = none := h.found .lda .direct
  have missing' : table.find? .nop .direct = none := h.found .nop .direct
  exact ⟨table, made, h.registered, h.entry again (by decide), h.standIn 0 (by decide), first,
    h.exactly _ _ _ first, h.several _ _ missing (by decide), h.only _ _ _ missing' (by decide),
    h.absent _ _ (by decide)⟩

end DispatchTable

end W65C816
