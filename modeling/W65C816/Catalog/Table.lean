import W65C816.Instruction.Record

/-!
# Dispatch tables

A dispatch table is built from a registry, a list of instructions, and finds the instruction for a
leading byte. A registry is admissible when no two of its instructions share a leading byte and
none of them is the stand-in for a byte without an instruction; then each byte has one entry, its
registration or the stand-in that carries the byte. In the other direction, from an operation and a
mode to a leading byte, the first registration of the pair counts.

Both directions are filled in while the registry is gone through once. `Draft.enter` is what one
instruction does to them, and `Draft.foldlM_enter_eq_ok_iff` is what all of them do.
-/

set_option autoImplicit false

namespace W65C816

open Addressing

/-- A list of instructions, to be found by their leading bytes. -/
abbrev Registry := List Instruction

namespace Registry

/-- Every instruction is one, and no two have the same leading byte. -/
def Admissible (registry : Registry) : Prop :=
  (∀ instruction ∈ registry, instruction.isValid = true) ∧
    registry.Pairwise fun i j => i.code ≠ j.code

/-- The instruction with the given leading byte, or the stand-in for the byte. -/
def entry (registry : Registry) (code : UInt8) : Instruction :=
  (registry.find? fun instruction => instruction.code = code).getD (.invalid code)

/-- Behind instructions with other leading bytes, an instruction changes the entry of its own byte
alone. -/
theorem entry_concat {registry : Registry} {instruction : Instruction}
    (apart : ∀ i ∈ registry, i.code ≠ instruction.code) (code : UInt8) :
    entry (registry ++ [instruction]) code =
      if instruction.code = code then instruction else registry.entry code := by
  unfold entry
  rw [List.find?_append]
  split
  · next same =>
    subst same
    have none : registry.find? (fun i => i.code = instruction.code) = none :=
      List.find?_eq_none.mpr fun i member => by simpa using apart i member
    simp [none]
  · next other => simp [other]

/-- The entry of a byte is an instruction exactly if one is registered under the byte. -/
theorem isValid_entry_iff {registry : Registry}
    (valid : ∀ instruction ∈ registry, instruction.isValid = true) (code : UInt8) :
    (registry.entry code).isValid = true ↔ ∃ instruction ∈ registry, instruction.code = code := by
  unfold entry
  cases found : registry.find? fun instruction => instruction.code = code with
  | some instruction =>
    have member := List.mem_of_find?_eq_some found
    have same := List.find?_some found
    exact iff_of_true (valid instruction member) ⟨instruction, member, of_decide_eq_true same⟩
  | none =>
    have absent := List.find?_eq_none.mp found
    simp only [decide_eq_true_eq] at absent
    refine iff_of_false (fun stands => by cases stands) ?_
    rintro ⟨instruction, member, same⟩
    exact absent instruction member same

/-- Admissibility is checked one registration at a time: the next instruction is valid and its
code is still free. -/
theorem admissible_concat_iff (registry : Registry) (instruction : Instruction) :
    Admissible (registry ++ [instruction]) ↔
      registry.Admissible ∧ instruction.isValid = true ∧
        ∀ i ∈ registry, i.code ≠ instruction.code := by
  simp only [Admissible, List.pairwise_append, List.forall_mem_append, List.forall_mem_singleton,
    List.pairwise_singleton, true_and]
  constructor
  · rintro ⟨⟨all, last⟩, distinct, apart⟩
    exact ⟨⟨all, distinct⟩, last, apart⟩
  · rintro ⟨⟨all, distinct⟩, last, apart⟩
    exact ⟨⟨all, last⟩, distinct, apart⟩

/-- A registry is admissible as far as it goes. -/
theorem Admissible.of_append {registry rest : Registry} (h : Admissible (registry ++ rest)) :
    registry.Admissible :=
  ⟨fun instruction member => h.1 instruction (List.mem_append_left rest member),
    (List.pairwise_append.mp h.2).1⟩

end Registry

/-- The leading byte of each operation in a mode. -/
abbrev ReverseIndex := List ((Opcode × Mode) × UInt8)

namespace ReverseIndex

/-- The leading byte of an operation in a mode. -/
def code? (index : ReverseIndex) (opcode : Opcode) (mode : Mode) : Option UInt8 :=
  index.lookup (opcode, mode)

/-- Enters an instruction, unless there is a byte for its operation in its mode already. -/
def enter (index : ReverseIndex) (instruction : Instruction) : ReverseIndex :=
  match index.code? instruction.opcode instruction.mode with
  | some _ => index
  | none => ((instruction.opcode, instruction.mode), instruction.code) :: index

/-- What was entered earlier stays. -/
theorem code?_enter (index : ReverseIndex) (instruction : Instruction) (opcode : Opcode)
    (mode : Mode) : (index.enter instruction).code? opcode mode =
      (index.code? opcode mode).or
        (if instruction.opcode = opcode ∧ instruction.mode = mode then some instruction.code
          else none) := by
  unfold enter
  by_cases same : instruction.opcode = opcode ∧ instruction.mode = mode
  · obtain ⟨rfl, rfl⟩ := same
    cases earlier : index.code? instruction.opcode instruction.mode with
    | some code => simp [earlier]
    | none => simp [code?]
  · have apart : (opcode, mode) ≠ (instruction.opcode, instruction.mode) := by
      rintro ⟨⟩
      exact same ⟨rfl, rfl⟩
    rw [if_neg same, Option.or_none]
    cases index.code? instruction.opcode instruction.mode with
    | some code => rfl
    | none => rw [code?, List.lookup_cons, beq_false_of_ne apart, code?]

/-- By induction on the instructions that are entered: the first one of a pair counts. -/
theorem code?_foldl_enter (index : ReverseIndex) (registry : Registry) (opcode : Opcode)
    (mode : Mode) : code? (registry.foldl enter index) opcode mode =
      (index.code? opcode mode).or
        ((registry.find? fun i => i.opcode = opcode ∧ i.mode = mode).map Instruction.code) := by
  induction registry generalizing index with
  | nil => simp
  | cons instruction rest ih =>
    rw [List.foldl_cons, ih, code?_enter, List.find?_cons, Option.or_assoc]
    by_cases same : instruction.opcode = opcode ∧ instruction.mode = mode <;> simp [same]

end ReverseIndex

/-- The leading bytes of a registry's operations in their modes. -/
def Registry.reverseIndex (registry : Registry) : ReverseIndex :=
  registry.foldl ReverseIndex.enter []

/-- The first registration of an operation in a mode is the one that the reverse index has. -/
theorem Registry.code?_reverseIndex (registry : Registry) (opcode : Opcode) (mode : Mode) :
    registry.reverseIndex.code? opcode mode =
      (registry.find? fun i => i.opcode = opcode ∧ i.mode = mode).map Instruction.code :=
  ReverseIndex.code?_foldl_enter [] registry opcode mode

/-- A registry with both directions at hand, from bytes to entries and back. -/
structure DispatchTable where
  registry : Registry
  admissible : registry.Admissible
  entries : Vector Instruction 256
  entries_eq : entries = Vector.ofFn fun i => registry.entry (UInt8.ofNat i)
  encodings : ReverseIndex := registry.reverseIndex
  encodings_eq : encodings = registry.reverseIndex := by rfl

namespace DispatchTable

/-- A table to which instructions are still added. -/
structure Draft where
  entries : Vector Instruction 256
  encodings : ReverseIndex

namespace Draft

/-- The table to which no instruction was added yet. -/
def empty : Draft where
  entries := Vector.ofFn fun i => .invalid (UInt8.ofNat i)
  encodings := []

/-- Adds an instruction, in both directions. Its byte must be free. -/
def enter (draft : Draft) (instruction : Instruction) : Except Misuse Draft :=
  let earlier := draft.entries.get ⟨instruction.code.toNat, instruction.code.toNat_lt⟩
  if instruction.isValid then
    if earlier.isValid then
      .error (.byteTaken instruction.code earlier.opcode instruction.opcode)
    else
      .ok {
        entries := draft.entries.set instruction.code.toNat instruction instruction.code.toNat_lt
        encodings := draft.encodings.enter instruction }
  else
    .error (.sentinelRegistered instruction.code)

/-- What the instructions of a registry come to. -/
def ofRegistry (registry : Registry) : Draft where
  entries := Vector.ofFn fun i => registry.entry (UInt8.ofNat i)
  encodings := registry.reverseIndex

/-- The empty table is that of the empty registry. -/
theorem empty_eq : empty = ofRegistry [] := rfl

/-- The table of a registry has at each code what the registry says of that code. -/
theorem get_ofRegistry (registry : Registry) (code : UInt8) :
    (ofRegistry registry).entries.get ⟨code.toNat, code.toNat_lt⟩ = registry.entry code := by
  have bound : code.toNat < 256 := code.toNat_lt
  change (ofRegistry registry).entries[code.toNat] = _
  rw [ofRegistry, Vector.getElem_ofFn, UInt8.ofNat_toNat]

/-- An instruction with a byte of its own takes the place of the stand-in for that byte. -/
theorem ofRegistry_concat {registry : Registry} {instruction : Instruction}
    (apart : ∀ i ∈ registry, i.code ≠ instruction.code) :
    ofRegistry (registry ++ [instruction]) =
      { entries := (ofRegistry registry).entries.set instruction.code.toNat instruction
          instruction.code.toNat_lt
        encodings := (ofRegistry registry).encodings.enter instruction } := by
  have entries : (ofRegistry (registry ++ [instruction])).entries =
      (ofRegistry registry).entries.set instruction.code.toNat instruction
        instruction.code.toNat_lt := by
    apply Vector.ext
    intro i bound
    have here : instruction.code = UInt8.ofNat i ↔ instruction.code.toNat = i := by
      rw [← UInt8.toNat_inj, UInt8.toNat_ofNat']
      omega
    simp only [ofRegistry, Vector.getElem_set, Vector.getElem_ofFn, Registry.entry_concat apart,
      here]
  have encodings : (ofRegistry (registry ++ [instruction])).encodings =
      (ofRegistry registry).encodings.enter instruction := by
    simp only [ofRegistry, Registry.reverseIndex, List.foldl_append, List.foldl_cons,
      List.foldl_nil]
  rw [← entries, ← encodings]

/-- An instruction is added exactly if the registry stays admissible with it. -/
theorem enter_eq_ok_iff {registry : Registry} (admissible : registry.Admissible)
    (instruction : Instruction) (next : Draft) :
    (ofRegistry registry).enter instruction = .ok next ↔
      Registry.Admissible (registry ++ [instruction]) ∧
        next = ofRegistry (registry ++ [instruction]) := by
  have taken := Registry.isValid_entry_iff admissible.1 instruction.code
  rw [Registry.admissible_concat_iff]
  simp only [enter, get_ofRegistry]
  by_cases valid : instruction.isValid = true
  · by_cases used : (registry.entry instruction.code).isValid = true
    · obtain ⟨i, member, same⟩ := taken.mp used
      rw [if_pos valid, if_pos used]
      exact iff_of_false nofun fun h => h.1.2.2 i member same
    · have free : ∀ i ∈ registry, i.code ≠ instruction.code := fun i member same =>
        used (taken.mpr ⟨i, member, same⟩)
      rw [if_pos valid, if_neg used, ← ofRegistry_concat free]
      constructor
      · intro h
        exact ⟨⟨admissible, valid, free⟩, (Except.ok.inj h).symm⟩
      · rintro ⟨-, rfl⟩
        rfl
  · rw [if_neg valid]
    exact iff_of_false nofun fun h => valid h.1.2.1

/-- All of them are added exactly if the registry is admissible. By induction on what is still to be
added: the instructions added before are the registry that the draft stands for. -/
theorem foldlM_enter_eq_ok_iff {earlier : Registry} (admissible : earlier.Admissible)
    (registry : Registry) (draft : Draft) :
    registry.foldlM enter (ofRegistry earlier) = .ok draft ↔
      Registry.Admissible (earlier ++ registry) ∧ draft = ofRegistry (earlier ++ registry) := by
  induction registry generalizing earlier with
  | nil =>
    rw [List.append_nil]
    constructor
    · intro h
      exact ⟨admissible, (Except.ok.inj h).symm⟩
    · rintro ⟨-, rfl⟩
      rfl
  | cons instruction rest ih =>
    have joined : earlier ++ instruction :: rest = (earlier ++ [instruction]) ++ rest := by simp
    rw [joined, List.foldlM_cons]
    constructor
    · intro h
      cases first : (ofRegistry earlier).enter instruction with
      | error why =>
        rw [first] at h
        cases h
      | ok next =>
        obtain ⟨suits, rfl⟩ := (enter_eq_ok_iff admissible instruction next).mp first
        rw [first] at h
        exact (ih suits).mp h
    · rintro ⟨suits, rfl⟩
      have suits' : Registry.Admissible (earlier ++ [instruction]) := suits.of_append
      rw [(enter_eq_ok_iff admissible instruction _).mpr ⟨suits', rfl⟩]
      exact (ih suits').mpr ⟨suits, rfl⟩

/-- A draft is made exactly from an admissible registry. -/
theorem foldlM_enter_empty_eq_ok_iff (registry : Registry) (draft : Draft) :
    registry.foldlM enter empty = .ok draft ↔
      registry.Admissible ∧ draft = ofRegistry registry := by
  have none : Registry.Admissible [] := ⟨List.forall_mem_nil _, List.Pairwise.nil⟩
  rw [empty_eq, foldlM_enter_eq_ok_iff none, List.nil_append]

end Draft

/-- The table of an admissible registry. -/
def build (registry : Registry) : Except Fault DispatchTable :=
  match h : registry.foldlM Draft.enter Draft.empty with
  | .error why => .error (.invalidOperation why)
  | .ok draft =>
    have made := (Draft.foldlM_enter_empty_eq_ok_iff registry draft).mp h
    .ok {
      registry
      admissible := made.1
      entries := draft.entries
      entries_eq := by rw [made.2, Draft.ofRegistry]
      encodings := draft.encodings
      encodings_eq := by rw [made.2, Draft.ofRegistry] }

/-- A table is built from its own registry, and so exactly from the admissible ones. -/
theorem build_eq_ok_iff (registry : Registry) (table : DispatchTable) :
    build registry = .ok table ↔ table.registry = registry := by
  unfold build
  constructor
  · intro h
    split at h
    · cases h
    · exact (congrArg DispatchTable.registry (Except.ok.inj h)).symm
  · rintro rfl
    obtain ⟨registry, admissible, entries, rfl, encodings, rfl⟩ := table
    split
    · next why failed =>
      rw [(Draft.foldlM_enter_empty_eq_ok_iff registry _).mpr ⟨admissible, rfl⟩] at failed
      cases failed
    · next draft made =>
      obtain ⟨-, rfl⟩ := (Draft.foldlM_enter_empty_eq_ok_iff registry draft).mp made
      rfl

/-- A table is built of the admissible registries, and of no other. -/
theorem exists_build_iff (registry : Registry) :
    (∃ table, build registry = .ok table) ↔ registry.Admissible := by
  simp only [build_eq_ok_iff]
  constructor
  · rintro ⟨table, rfl⟩
    exact table.admissible
  · intro admissible
    exact ⟨{
      registry, admissible
      entries := (Draft.ofRegistry registry).entries, entries_eq := rfl }, rfl⟩

/-- The entry of a leading byte. -/
def get (table : DispatchTable) (code : UInt8) : Instruction :=
  table.entries.get ⟨code.toNat, code.toNat_lt⟩

/-- The entries in the order of their bytes. -/
def toList (table : DispatchTable) : List Instruction :=
  table.entries.toList

/-- The number of bytes with an instruction. -/
def registered (table : DispatchTable) : Nat :=
  table.toList.countP Instruction.isValid

/-- The instruction of an operation in a mode. -/
def find? (table : DispatchTable) (opcode : Opcode) (mode : Mode) : Option Instruction :=
  (table.encodings.code? opcode mode).map table.get

/-- The instructions of an operation, in the order of their bytes. -/
def encodingsOf (table : DispatchTable) (opcode : Opcode) : List Instruction :=
  table.toList.filter fun instruction => instruction.isValid && instruction.opcode == opcode

/-- Reads the instruction at a position. -/
def decodeAt (table : DispatchTable) (bus : Bus) (offset : UInt32) (widths : Widths) :
    Except Fault Record := do
  let instruction := table.get (← bus.read8 offset)
  let operands ← instruction.decode bus (offset + 1) widths
  pure { offset, instruction, operands }

/-- A decoded instruction lies where it was looked for and is at most four bytes long. -/
theorem offset_of_decodeAt {table : DispatchTable} {bus : Bus} {offset : UInt32}
    {widths : Widths} {record : Record} (h : table.decodeAt bus offset widths = .ok record) :
    record.offset = offset ∧ record.operands.length ≤ 3 := by
  simp only [decodeAt, bind, Except.bind, pure, Except.pure] at h
  split at h
  · cases h
  · split at h
    · cases h
    · next decoded =>
      cases h
      exact ⟨rfl, Instruction.operandLength_le (Instruction.operandLength_of_decode decoded)⟩

/-- The entry of a byte is what the registry has for it. -/
theorem get_eq_entry (table : DispatchTable) (code : UInt8) :
    table.get code = table.registry.entry code := by
  unfold get
  simp [table.entries_eq, Vector.get, Vector.ofFn]

end DispatchTable

end W65C816
