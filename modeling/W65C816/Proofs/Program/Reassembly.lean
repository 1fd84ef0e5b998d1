import W65C816.Catalog.Standard
import W65C816.Program.Disassembly
import W65C816.Proofs.Program.Writing

/-!
# An image is put together again from its instructions

An image that is read to its end is covered by its instructions, one behind another, each with the
bytes that it was read from. When every operation has at most one leading byte in a mode, an encoder
finds the instruction of a record again, and it takes every width that a decoder reads. So writing
the records from the same offset puts the same bytes there, into any view that is long enough.

The standard table has one leading byte to an operation and a mode.
-/

set_option autoImplicit false

namespace W65C816

open Addressing

/-! ## Images that are read to their end -/

/-- From an offset on the view is read as the records, one behind another, to its end. -/
inductive DispatchTable.Covers (table : DispatchTable) (view : View) (widths : Widths) :
    UInt32 → List Record → Prop
  | stop {offset : UInt32} (done : view.length ≤ offset.toNat) : Covers table view widths offset []
  | step {offset : UInt32} {record : Record} {rest : List Record}
    (read : table.decodeAt (.flat view) offset widths = .ok record)
    (more : Covers table view widths record.next rest) :
    Covers table view widths offset (record :: rest)

namespace Disassembler

/-- A walk that has not failed ends at the end of the bus. -/
theorem done_of_next? {walk : Disassembler} (going : walk.failed = false)
    (h : walk.next? = none) : walk.bus.length ≤ walk.offset.toNat := by
  unfold next? at h
  split at h
  · next done =>
    rw [isDone, going, Bool.false_or, decide_eq_true_iff] at done
    exact done
  · split at h <;> cases h

/-- The next record is decoded where the walk is, and the walk passes it. -/
theorem decodeAt_of_next? {walk next : Disassembler} {record : Record}
    (h : walk.next? = some (.ok record, next)) :
    walk.table.decodeAt walk.bus walk.offset walk.widths = .ok record ∧
      next = walk.pass record := by
  unfold next? at h
  split at h
  · cases h
  · split at h
    · next found read =>
      simp only [Option.some.injEq, Prod.mk.injEq, Except.ok.injEq] at h
      obtain ⟨rfl, rfl⟩ := h
      exact ⟨read, rfl⟩
    · cases h

/-- A walk under fixed widths that ends without a fault covers the view, by induction on the
walk. -/
theorem covers_walkOn {view : View} (walk : Disassembler) (found : Array Record)
    (flat : walk.bus = .flat view) (fixed : walk.follow = false) (going : walk.failed = false)
    (sound : (walk.walkOn found).fault = none) :
    ∃ records, (walk.walkOn found).records.toList = found.toList ++ records ∧
      walk.table.Covers view walk.widths walk.offset records := by
  induction walk, found using walkOn.induct with
  | case1 walk found h =>
    have done := done_of_next? going h
    rw [flat] at done
    rw [walkOn_of_end h]
    exact ⟨[], (List.append_nil _).symm, .stop done⟩
  | case2 walk found fault next h =>
    rw [walkOn_of_fault h] at sound
    cases sound
  | case3 walk found record next h ih =>
    have moves := walkOn_of_record h found
    obtain ⟨read, rfl⟩ := decodeAt_of_next? h
    rw [flat] at read
    have widths : (walk.pass record).widths = walk.widths := by
      rw [pass, fixed]
      rfl
    rw [moves] at sound ⊢
    obtain ⟨records, hrecords, covers⟩ := ih flat fixed going sound
    rw [widths] at covers
    refine ⟨record :: records, ?_, .step read covers⟩
    rw [hrecords, Array.toList_push, List.append_assoc]
    rfl

/-- A walk over a view that is covered goes through all of it, by induction on the records. -/
theorem walkOn_of_covers {table : DispatchTable} {view : View} {widths : Widths}
    {offset : UInt32} {records : List Record} (covers : table.Covers view widths offset records)
    (found : Array Record) :
    let walk : Disassembler := { table, bus := .flat view, offset, widths }
    (walk.walkOn found).fault = none ∧
      (walk.walkOn found).records.toList = found.toList ++ records := by
  induction covers generalizing found with
  | @stop offset done =>
    let walk : Disassembler := { table, bus := .flat view, offset, widths }
    have finished : walk.next? = none := by
      have isDone : walk.isDone = true := decide_eq_true done
      rw [next?, if_pos isDone]
    change (walk.walkOn found).fault = none ∧
      (walk.walkOn found).records.toList = found.toList ++ []
    rw [walkOn_of_end finished, List.append_nil]
    exact ⟨rfl, rfl⟩
  | @step offset record rest read more ih =>
    let walk : Disassembler := { table, bus := .flat view, offset, widths }
    have onward : walk.next? = some (.ok record, walk.pass record) := by
      obtain ⟨-, -, inside⟩ := DispatchTable.exists_code_of_decodeAt read
      have going : walk.isDone = false := decide_eq_false (Nat.not_le.mpr inside)
      rw [next?, if_neg (by rw [going]; decide)]
      simp only [walk, read]
    have hrest := ih (found.push record)
    rw [Array.toList_push, List.append_assoc] at hrest
    change (walk.walkOn found).fault = none ∧
      (walk.walkOn found).records.toList = found.toList ++ (record :: rest)
    rw [walkOn_of_record onward]
    exact hrest

end Disassembler

/-- Every instruction from an offset to the end can be read exactly when they cover the view. -/
theorem DispatchTable.decodeAll_flat_eq_ok_iff {table : DispatchTable} {view : View}
    {start : UInt32} {widths : Widths} {records : List Record} :
    table.decodeAll (.flat view) start widths = .ok records ↔
      table.Covers view widths start records := by
  unfold decodeAll Disassembler.run
  dsimp only
  constructor
  · intro h
    split at h
    · cases h
    · next sound =>
      obtain ⟨found, hfound, covers⟩ := Disassembler.covers_walkOn
        { table, bus := .flat view, offset := start, widths } #[] rfl rfl rfl sound
      injection h with same
      rw [hfound, List.nil_append] at same
      exact same ▸ covers
  · intro covers
    obtain ⟨sound, hrecords⟩ := Disassembler.walkOn_of_covers covers #[]
    rw [sound, hrecords]
    rfl

/-! ## Requests for what was read -/

/-- The request to write a record, if its operands have a width. -/
def Record.request? (record : Record) : Option WriteRequest :=
  (OperandWidth.ofLength? record.operands.length).map fun width =>
    { opcode := record.instruction.opcode
      mode := record.instruction.mode
      width
      first := record.operands.first
      second := record.operands.second }

/-- Each length of up to three bytes is that of a width. -/
theorem OperandWidth.exists_length_eq {length : Nat} (h : length ≤ 3) :
    ∃ width, ofLength? length = some width ∧ width.length = length := by
  rcases length with _ | _ | _ | _ | _
  · exact ⟨.none, rfl, rfl⟩
  · exact ⟨.byte, rfl, rfl⟩
  · exact ⟨.word, rfl, rfl⟩
  · exact ⟨.long, rfl, rfl⟩
  · omega

/-- A constant that is read under some widths is read under two equal ones. -/
theorem Opcode.takesImmediate_of_immediateLength? {opcode : Opcode} {widths : Widths}
    {width : OperandWidth} (h : opcode.immediateLength? widths = some width.length) :
    opcode.takesImmediate width = true := by
  obtain ⟨memory, index⟩ := widths
  unfold takesImmediate
  rw [Bool.or_eq_true, beq_iff_eq, beq_iff_eq, ← h]
  unfold immediateLength?
  cases memory <;> cases index <;> cases opcode <;> simp

/-- The encoder takes every width that the decoder reads. -/
theorem Instruction.fits_of_operandLength {instruction : Instruction} {widths : Widths}
    {width : OperandWidth} (valid : instruction.isValid = true)
    (h : instruction.operandLength widths = .ok width.length) : instruction.fits width = true := by
  unfold operandLength at h
  rw [if_pos valid] at h
  unfold fits
  cases fixed : instruction.mode.operandLength? with
  | some length =>
    rw [fixed] at h
    have same : length = width.length := Except.ok.inj h
    simp [same]
  | none =>
    rw [fixed] at h
    dsimp only at h ⊢
    split at h
    · next found =>
      rw [Except.ok.inj h] at found
      exact Opcode.takesImmediate_of_immediateLength? found
    · cases h

/-- An operation has at most one leading byte in a mode. -/
def Registry.Unambiguous (registry : Registry) : Prop :=
  ∀ i ∈ registry, ∀ j ∈ registry, i.opcode = j.opcode → i.mode = j.mode → i = j

/-- Without ambiguity the encoder finds an instruction by its operation and mode. -/
theorem DispatchTable.lookup_of_mem {table : DispatchTable} (clear : table.registry.Unambiguous)
    {instruction : Instruction} (member : instruction ∈ table.registry) :
    table.lookup instruction.opcode instruction.mode = .ok instruction := by
  rw [lookup, find?_eq]
  cases found : table.registry.find? fun i =>
    i.opcode = instruction.opcode ∧ i.mode = instruction.mode with
  | some other =>
    have same := List.find?_some found
    have member' := List.mem_of_find?_eq_some found
    rw [decide_eq_true_iff] at same
    rw [clear other member' instruction member same.1 same.2]
  | none =>
    have absent := List.find?_eq_none.mp found instruction member
    simp at absent

/-! ## The standard instruction set -/

/-- The numbers are all different, and none of them is a bit that is set in `seen`. -/
def allFresh (seen : Nat) : List Nat → Bool
  | [] => true
  | first :: rest => !seen.testBit first && allFresh (seen ||| 1 <<< first) rest

/-- Numbers that are fresh one after the other are distinct, and none of them was seen before. -/
theorem nodup_of_allFresh {seen : Nat} {numbers : List Nat} (h : allFresh seen numbers = true) :
    numbers.Nodup ∧ ∀ n ∈ numbers, seen.testBit n = false := by
  induction numbers generalizing seen with
  | nil => exact ⟨.nil, nofun⟩
  | cons first rest ih =>
    rw [allFresh, Bool.and_eq_true, Bool.not_eq_true'] at h
    obtain ⟨distinct, apart⟩ := ih h.2
    have unseen (n : Nat) (member : n ∈ rest) : seen.testBit n = false ∧ n ≠ first := by
      have both := apart n member
      rw [Nat.testBit_or, Bool.or_eq_false_iff] at both
      refine ⟨both.1, ?_⟩
      rintro rfl
      simp at both
    refine ⟨List.nodup_cons.mpr ⟨fun member => (unseen first member).2 rfl, distinct⟩, ?_⟩
    intro n member
    rcases List.mem_cons.mp member with rfl | later
    · exact h.1
    · exact (unseen n later).1

/-- A number for an operation in a mode. -/
def encodingNumber (encoding : Opcode × Mode) : Nat :=
  32 * encoding.1.ctorIdx + encoding.2.ctorIdx

/-- Instructions whose operations and modes have different numbers are unambiguous. -/
theorem Registry.unambiguous_ofEncodings {encodings : List (Opcode × Mode)}
    (h : allFresh 0 (encodings.map encodingNumber) = true) :
    (Registry.ofEncodings encodings).Unambiguous := by
  have numbers : (Registry.ofEncodings encodings).map
      (fun i => encodingNumber (i.opcode, i.mode)) = encodings.map encodingNumber := by
    refine List.ext_getElem (by simp [ofEncodings]) fun i _ _ => ?_
    simp [ofEncodings]
  have distinct := (nodup_of_allFresh h).1
  rw [← numbers] at distinct
  have apart : (Registry.ofEncodings encodings).Pairwise fun i j =>
      (i.opcode, i.mode) ≠ (j.opcode, j.mode) :=
    List.Pairwise.of_map _ (fun i j apart same => apart (congrArg encodingNumber same)) distinct
  have pairs : (Registry.ofEncodings encodings).Pairwise fun i j =>
      i.opcode = j.opcode → i.mode = j.mode → i = j :=
    apart.imp fun h sameOpcode sameMode => absurd (by rw [sameOpcode, sameMode]) h
  have swapped : (Registry.ofEncodings encodings).Pairwise
      (flip fun i j => i.opcode = j.opcode → i.mode = j.mode → i = j) :=
    apart.imp fun h sameOpcode sameMode => absurd (by rw [sameOpcode, sameMode]) h
  have all := List.Pairwise.forall_of_forall_of_flip (fun _ _ _ _ => rfl) pairs swapped
  exact fun i hi j hj => all hi hj

/-- No two standard instructions have the same operation and mode. -/
theorem Registry.unambiguous_standard : Registry.standard.Unambiguous :=
  unambiguous_ofEncodings (by decide +kernel)

/-- Of 256 encodings there is one for each byte. -/
theorem Registry.exists_code_ofEncodings (encodings : List (Opcode × Mode))
    (whole : encodings.length = 256) (code : UInt8) :
    ∃ instruction ∈ Registry.ofEncodings encodings, instruction.code = code := by
  have bound : code.toNat < encodings.length := by
    rw [whole]
    exact code.toNat_lt
  exact ⟨_, List.mem_mapIdx.mpr ⟨code.toNat, bound, rfl⟩, UInt8.ofNat_toNat⟩

/-- There is a standard encoding for each code. -/
theorem length_standardEncodings : standardEncodings.length = 256 := by
  decide +kernel

/-- Every byte has an instruction. -/
theorem DispatchTable.get_mem_standard (code : UInt8) :
    standard.get code ∈ standard.registry := by
  obtain ⟨instruction, member, same⟩ :=
    Registry.exists_code_ofEncodings standardEncodings length_standardEncodings code
  rw [← Registry.standard, ← registry_standard] at member
  rw [← same, get_of_mem member]
  exact member

/-- The standard table has for a byte what the list of encodings has at its place. -/
theorem DispatchTable.get_standard {code : UInt8} {opcode : Opcode} {mode : Addressing.Mode}
    (h : standardEncodings[code.toNat]? = some (opcode, mode)) :
    standard.get code = ⟨code, opcode, mode⟩ := by
  obtain ⟨bound, here⟩ := List.getElem?_eq_some_iff.mp h
  have member : (⟨code, opcode, mode⟩ : Instruction) ∈ standard.registry := by
    rw [registry_standard, Registry.standard, Registry.ofEncodings, List.mem_mapIdx]
    exact ⟨code.toNat, bound, by rw [here, UInt8.ofNat_toNat]⟩
  have found := get_of_mem member
  exact found

/-- An instruction that counting up has given its leading byte is one of those listed. -/
theorem Registry.mem_of_mem_ofEncodings {encodings : List (Opcode × Addressing.Mode)}
    {instruction : Instruction} (member : instruction ∈ ofEncodings encodings) :
    (instruction.opcode, instruction.mode) ∈ encodings := by
  obtain ⟨i, bound, rfl⟩ := List.mem_mapIdx.mp member
  exact List.getElem_mem bound

/-- Every byte has one of the standard encodings. -/
theorem DispatchTable.encoding_mem_standard (code : UInt8) :
    ((standard.get code).opcode, (standard.get code).mode) ∈ standardEncodings := by
  have member := get_mem_standard code
  rw [registry_standard] at member
  exact Registry.mem_of_mem_ofEncodings member

/-! ## Reassembly -/

namespace DispatchTable

variable {table : DispatchTable} {source target : View} {widths : Widths} {offset start : UInt32}

/-- Operands that were decoded are asked for as they are. -/
theorem operandsFor_eq {instruction : Instruction} {operands : Operands} {width : OperandWidth}
    (valid : instruction.isValid = true)
    (h : instruction.operandLength widths = .ok operands.length)
    (same : width.length = operands.length) :
    instruction.operandsFor width operands.first operands.second = operands := by
  obtain ⟨first, second, length⟩ := operands
  unfold Instruction.operandLength at h
  rw [if_pos valid] at h
  unfold Instruction.operandsFor
  cases fixed : instruction.mode.operandLength? with
  | some count =>
    rw [fixed] at h
    rw [Option.getD_some, Except.ok.inj h]
  | none => rw [Option.getD_none, same]

/-- A record that was read can be written again: the encoder finds its instruction, takes its
operands, and puts down the bytes that it was read from. -/
theorem exists_request_of_decodeAt (clear : table.registry.Unambiguous)
    (full : ∀ code, table.get code ∈ table.registry) {record : Record}
    (read : table.decodeAt (.flat source) offset widths = .ok record) :
    ∃ request, record.request? = some request ∧
      table.lookup request.opcode request.mode = .ok record.instruction ∧
      record.instruction.fits request.width = true ∧
      let bytes := record.instruction.encode request.width request.first request.second
      source.Holds offset.toNat bytes ∧ record.next = offset + UInt32.ofNat bytes.length := by
  obtain ⟨code, hcode, -⟩ := exists_code_of_decodeAt read
  have member : record.instruction ∈ table.registry := hcode ▸ full code
  have valid := valid_of_mem member
  obtain ⟨here, -, hlength, -, holds⟩ :=
    (decodeAt_flat_eq_ok_iff table source offset widths record valid).mp read
  obtain ⟨width, hwidth, same⟩ :=
    OperandWidth.exists_length_eq (Instruction.operandLength_le hlength)
  have hbytes : record.instruction.encode width record.operands.first record.operands.second =
      record.instruction.code :: record.instruction.operandBytes record.operands := by
    rw [Instruction.encode_eq, operandsFor_eq valid hlength same]
  refine ⟨_, by rw [Record.request?, hwidth]; rfl, lookup_of_mem clear member, ?_, ?_, ?_⟩
  · exact Instruction.fits_of_operandLength valid (same ▸ hlength)
  · rw [hbytes]
    exact holds
  · rw [hbytes, List.length_cons, Instruction.length_operandBytes valid hlength, Record.next,
      Record.length, here, Nat.add_comm]

/-- Writing what was read puts the image together again, by induction on the records. -/
theorem reassemble (clear : table.registry.Unambiguous)
    (full : ∀ code, table.get code ∈ table.registry) {records : List Record}
    (covers : table.Covers source widths start records)
    (room : source.length ≤ target.length) :
    ∃ requests offsets written, records.mapM Record.request? = some requests ∧
      table.writeAll start requests (.flat target) = .ok offsets (.flat written) ∧
      (∀ i, start.toNat ≤ i → i < source.length → written.byteAt i = source.byteAt i) ∧
      (offsets.getLast?.getD start).toNat = max start.toNat source.length := by
  induction covers generalizing target with
  | @stop offset done =>
    refine ⟨[], [], target, rfl, rfl, fun i _ _ => by omega, ?_⟩
    exact (Nat.max_eq_left done).symm
  | @step offset record rest read more ih =>
    obtain ⟨request, hrequest, found, fits, holds, hnext⟩ :=
      exists_request_of_decodeAt clear full read
    have inside := holds.end_le (Instruction.encode_ne_nil _ _ _ _)
    have behind := View.toNat_add_ofNat inside
    have inside' := Nat.le_trans inside room
    have room' : source.length ≤ (target.setAll (target.start + offset.toNat)
        (record.instruction.encode request.width request.first request.second)).length := room
    obtain ⟨requests, offsets, written, hrequests, hwritten, same, hend⟩ := ih room'
    rw [hnext] at hwritten same hend
    obtain ⟨final, hfinal, -, keeps⟩ := writeAll_keeps hwritten
    cases hfinal
    refine ⟨request :: requests, record.next :: offsets, written, ?_, ?_, ?_, ?_⟩
    · rw [List.mapM_cons, hrequest, hrequests]
      rfl
    · exact (writeAll_cons_flat_eq_ok_iff request requests).mpr
        ⟨record.instruction, found, fits, inside', offsets, hwritten, by rw [hnext]⟩
    · intro i hstart hinside
      by_cases behindFirst : i < offset.toNat +
          (record.instruction.encode request.width request.first request.second).length
      · obtain ⟨k, rfl⟩ := Nat.exists_eq_add_of_le hstart
        have bound : k <
            (record.instruction.encode request.width request.first request.second).length := by
          omega
        have hput := (View.holds_setAll inside').byteAt bound
        rw [keeps _ (by omega), hput, holds.byteAt bound]
      · exact same i (by omega) hinside
    · rw [List.getLast?_cons, Option.getD_some, hnext, hend, behind]
      omega

/-- An image of the standard instruction set that can be read to its end is put together again by
writing its records from the same offset into any view that is long enough: every record can be
written, the bytes from the offset to the end are those of the image, and the writer stands at the
end. From an offset behind the end there is nothing to read and nothing to write, so the writer
stays where it is. -/
theorem decodeAll_reassembles (source target : View) (start : UInt32) (widths : Widths)
    (records : List Record)
    (read : standard.decodeAll (.flat source) start widths = .ok records)
    (room : source.length ≤ target.length) :
    ∃ requests offsets written, records.mapM Record.request? = some requests ∧
      standard.writeAll start requests (.flat target) = .ok offsets (.flat written) ∧
      (∀ i, start.toNat ≤ i → i < source.length → written.byteAt i = source.byteAt i) ∧
      (offsets.getLast?.getD start).toNat = max start.toNat source.length := by
  have registered : standard.registry = Registry.standard := by rw [standard]
  have clear : standard.registry.Unambiguous := registered ▸ Registry.unambiguous_standard
  exact reassemble clear get_mem_standard (decodeAll_flat_eq_ok_iff.mp read) room

/-- The last eight bytes of a memory are a constant of two bytes, a constant of one, and a block
move. Their records put the bytes together again in a memory that holds nothing but zeros. -/
theorem decodeAll_reassembles_three :
    let bytes : List UInt8 := [0xA9, 0x34, 0x12, 0xA2, 0x05, 0x54, 0x02, 0x01]
    let source := (View.whole Memory.least).setAll 0x1F8 bytes
    let target := View.whole Memory.least
    let widths : Widths := { memory := .word }
    let load : Record := ⟨0x1F8, ⟨0xA9, .lda, .immediate⟩, { first := 0x1234, length := 2 }⟩
    let index : Record := ⟨0x1FB, ⟨0xA2, .ldx, .immediate⟩, { first := 5, length := 1 }⟩
    let move : Record := ⟨0x1FD, ⟨0x54, .mvn, .blockMove⟩, { first := 1, second := 2, length := 2 }⟩
    standard.decodeAll (.flat source) 0x1F8 widths = .ok [load, index, move] ∧
      source.length ≤ target.length ∧
      ∃ requests offsets written, [load, index, move].mapM Record.request? = some requests ∧
        standard.writeAll 0x1F8 requests (.flat target) = .ok offsets (.flat written) ∧
        written.Holds 0x1F8 bytes ∧ (offsets.getLast?.getD 0x1F8).toNat = 0x200 := by
  intro bytes source target widths load index move
  have hlength : source.length = 0x200 := Memory.size_least
  have held : source.Holds 0x1F8 bytes :=
    @View.holds_setAll (.whole .least) 0x1F8 bytes (by decide +kernel)
  obtain ⟨i₀, b₀, i₁, b₁, i₂, b₂, i₃, b₃, i₄, b₄, i₅, b₅, i₆, b₆, i₇, b₇, -⟩ := held
  have first : standard.decodeAt (.flat source) 0x1F8 widths = .ok load := by
    have row : load.instruction.operandBytes load.operands = [0x34, 0x12] := by decide
    refine (decodeAt_flat_eq_ok_iff _ _ _ _ load rfl).mpr
      ⟨rfl, get_standard (by decide +kernel), rfl, rfl, ?_⟩
    rw [row]
    exact ⟨i₀, b₀, i₁, b₁, i₂, b₂, trivial⟩
  have second : standard.decodeAt (.flat source) 0x1FB widths = .ok index :=
    (decodeAt_flat_eq_ok_iff _ _ _ _ index rfl).mpr
      ⟨rfl, get_standard (by decide +kernel), rfl, rfl, i₃, b₃, i₄, b₄, trivial⟩
  have third : standard.decodeAt (.flat source) 0x1FD widths = .ok move :=
    (decodeAt_flat_eq_ok_iff _ _ _ _ move rfl).mpr
      ⟨rfl, get_standard (by decide +kernel), rfl, rfl, i₅, b₅, i₆, b₆, i₇, b₇, trivial⟩
  have read : standard.decodeAll (.flat source) 0x1F8 widths = .ok [load, index, move] := by
    refine decodeAll_flat_eq_ok_iff.mpr (.step first (.step second (.step third (.stop ?_))))
    rw [hlength]
    decide
  obtain ⟨requests, offsets, written, taken, wrote, same, finish⟩ :=
    decodeAll_reassembles source target 0x1F8 widths _ read (Nat.le_refl _)
  have held : source.Holds 0x1F8 bytes :=
    @View.holds_setAll (.whole .least) 0x1F8 bytes (by decide +kernel)
  refine ⟨read, Nat.le_refl _, requests, offsets, written, taken, wrote, ?_, ?_⟩
  · obtain ⟨next, flat, long, -⟩ := writeAll_keeps wrote
    cases flat
    refine held.frame (Nat.le_of_eq long.symm) fun i above below => same i above ?_
    rw [hlength]
    exact below
  · rw [finish, hlength]
    rfl

/-- From an offset behind the end the writer does not come to stand at the end. -/
theorem not_reassembles_up_to_length :
    ¬ ∀ (source target : View) (start : UInt32) (widths : Widths) (records : List Record),
      standard.decodeAll (.flat source) start widths = .ok records →
      source.length ≤ target.length →
      ∃ requests offsets written, records.mapM Record.request? = some requests ∧
        standard.writeAll start requests (.flat target) = .ok offsets (.flat written) ∧
        (∀ i, start.toNat ≤ i → i < source.length → written.byteAt i = source.byteAt i) ∧
        (offsets.getLast?.getD start).toNat = source.length := by
  intro claim
  let image := View.whole Memory.least
  have hlength : image.length = 0x200 := Memory.size_least
  have read : standard.decodeAll (.flat image) 0x300 {} = .ok [] := by
    refine decodeAll_flat_eq_ok_iff.mpr (.stop ?_)
    rw [hlength]
    decide
  obtain ⟨requests, offsets, written, hrequests, hwritten, -, hend⟩ :=
    claim image image 0x300 {} [] read (Nat.le_refl _)
  cases hrequests
  cases hwritten
  rw [hlength] at hend
  exact absurd hend (by decide)

end DispatchTable

end W65C816
