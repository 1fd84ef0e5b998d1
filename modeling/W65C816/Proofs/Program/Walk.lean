import W65C816.Proofs.Program.Reassembly

/-!
# Walks tile the view

A disassembler is asked for one item after another: `Disassembler.Yields` says which items come and
what is left of the walk behind them. On a flat view every walk comes to an end, and its records
tile the view from the start on, each beginning where the one before it ended. An instruction cannot
be read when its bytes run past the view, and with the standard table only then; so a walk ends at
the end of the view or stands in front of an instruction that is cut off.

What a walk yields next depends on nothing but where it is and the widths that it holds, so a fresh
walk from there yields the rest.
-/

set_option autoImplicit false

namespace W65C816

open Addressing

/-! ## Reading what may be cut off -/

namespace View

variable {view : View} {α β : Type}

/-- The outcome of reading up to a position: it succeeds when the view extends so far, and is out of
range otherwise. -/
inductive Bounded (view : View) (last : Nat) : Except Fault α → Prop
  | inside (room : last ≤ view.length) (value : α) : Bounded view last (.ok value)
  | outside (cut : view.length < last) (position : Nat) :
    Bounded view last (.error (.outOfRange position view.length))

/-- What is made of an answer is bounded as the answer is. -/
theorem Bounded.map {last : Nat} {outcome : Except Fault α} (h : view.Bounded last outcome)
    (change : α → β) : view.Bounded last (outcome >>= fun value => pure (change value)) := by
  cases h with
  | inside room value => exact .inside room (change value)
  | outside cut position => exact .outside cut position

/-- Reading that succeeds depends on the room alone. -/
theorem Bounded.exists_ok {last : Nat} {outcome : Except Fault α} (h : view.Bounded last outcome)
    (room : last ≤ view.length) : ∃ value, outcome = .ok value := by
  cases h with
  | inside _ value => exact ⟨value, rfl⟩
  | outside cut _ => omega

/-- A check is bounded by the end of what is checked. -/
theorem bounded_check (view : View) (position : UInt32) {count : Nat} (positive : 0 < count) :
    view.Bounded (position.toNat + count) (view.check position count) := by
  cases hcheck : view.check position count with
  | ok _ =>
    have room := (view.check_eq_ok_iff position count).mp hcheck
    exact .inside (by omega) ()
  | error fault =>
    have cut : ¬ position.toNat + max count 1 ≤ view.length := by
      rw [← view.check_eq_ok_iff, hcheck]
      exact nofun
    unfold check at hcheck
    split at hcheck
    · obtain rfl := Except.error.inj hcheck
      exact .outside (by omega) _
    · split at hcheck
      · obtain rfl := Except.error.inj hcheck
        exact .outside (by omega) _
      · cases hcheck

/-- A location is bounded by its end. -/
theorem bounded_locate (view : View) (position : UInt32) {count : Nat} (positive : 0 < count) :
    view.Bounded (position.toNat + count) (view.locate position count) := by
  have hcheck := view.bounded_check position positive
  unfold locate
  generalize view.check position count = checked at hcheck
  cases hcheck with
  | inside room _ => exact .inside room _
  | outside cut last => exact .outside cut last

/-- A byte is bounded by its end. -/
theorem bounded_read8 (view : View) (position : UInt32) :
    view.Bounded (position.toNat + 1) (view.read8 position) := by
  have hlocate := view.bounded_locate position Nat.one_pos
  unfold read8
  generalize view.locate position 1 = located at hlocate
  cases hlocate with
  | inside room index => exact .inside room _
  | outside cut last => exact .outside cut last

/-- A word is bounded by its end. -/
theorem bounded_read16 (view : View) (position : UInt32) :
    view.Bounded (position.toNat + 2) (view.read16 position) := by
  have hlocate := view.bounded_locate position Nat.two_pos
  unfold read16
  generalize view.locate position 2 = located at hlocate
  cases hlocate with
  | inside room index => exact .inside room _
  | outside cut last => exact .outside cut last

/-- An address is bounded by its end. -/
theorem bounded_read24 (view : View) (position : UInt32) :
    view.Bounded (position.toNat + 3) (view.read24 position) := by
  have hlocate := view.bounded_locate position (Nat.succ_pos 2)
  unfold read24
  generalize view.locate position 3 = located at hlocate
  cases hlocate with
  | inside room index => exact .inside room _
  | outside cut last => exact .outside cut last

/-- A number of up to three bytes is bounded by its end. -/
theorem bounded_readNumber (view : View) {position : UInt32}
    (inside : position.toNat ≤ view.length) {length : Nat} (short : length ≤ 3) :
    view.Bounded (position.toNat + length) (Bus.readNumber (.flat view) position length) := by
  rcases length with _ | _ | _ | _ | _
  · exact .inside inside 0
  · exact (view.bounded_read8 position).map UInt8.toUInt32
  · exact (view.bounded_read16 position).map UInt16.toUInt32
  · exact view.bounded_read24 position
  · omega

end View

namespace Instruction

variable {instruction : Instruction} {widths : Widths} {length : Nat}

/-- A block move is checked as a whole, so its second bank is there when its first one is read. -/
theorem bounded_decode_blockMove (move : instruction.mode = .blockMove)
    (h : instruction.operandLength widths = .ok 2) (view : View) (position : UInt32) :
    view.Bounded (position.toNat + 2) (instruction.decode (.flat view) position widths) := by
  have hcheck := view.bounded_check position Nat.two_pos
  rw [decode_blockMove_flat move h]
  generalize view.check position 2 = checked at hcheck
  cases hcheck with
  | outside cut last => exact .outside cut last
  | inside room _ =>
    have next : (position + 1).toNat = position.toNat + 1 := view.toNat_add_one (by omega)
    obtain ⟨destination, hdestination⟩ := (view.bounded_read8 position).exists_ok (by omega)
    obtain ⟨source, hsource⟩ := (view.bounded_read8 (position + 1)).exists_ok (by omega)
    simp only [bind, Except.bind, hdestination, hsource]
    exact .inside room _

/-- The operands of an instruction are read when the view extends over them. -/
theorem bounded_decode (h : instruction.operandLength widths = .ok length) (view : View)
    {position : UInt32} (inside : position.toNat ≤ view.length) :
    view.Bounded (position.toNat + length)
      (instruction.decode (.flat view) position widths) := by
  by_cases move : instruction.mode = .blockMove
  · by_cases valid : instruction.isValid = true
    · obtain rfl := length_blockMove valid move h
      exact bounded_decode_blockMove move h view position
    · -- What is not an instruction has no operands, whatever its mode says.
      have none : length = 0 := by
        unfold operandLength at h
        rw [if_neg valid] at h
        exact (Except.ok.inj h).symm
      subst none
      have hdecode : instruction.decode (.flat view) position widths = .ok {} := by
        unfold decode
        rw [h, move]
        rfl
      rw [hdecode]
      exact .inside inside _
  · rw [decode_number move h]
    exact (view.bounded_readNumber inside (operandLength_le h)).map _

end Instruction

namespace DispatchTable

variable {table : DispatchTable} {view : View} {offset : UInt32} {widths : Widths}

/-- The instruction at a position is longer than what is left of the view. -/
def RunsPast (table : DispatchTable) (view : View) (offset : UInt32) (widths : Widths) : Prop :=
  ∃ length, (table.get (view.byteAt offset.toNat)).operandLength widths = .ok length ∧
    view.length < offset.toNat + 1 + length

/-- Inside a view the code can be read, so all depends on the operands. -/
theorem decodeAt_inside (table : DispatchTable) (inside : offset.toNat < view.length)
    (widths : Widths) :
    table.decodeAt (.flat view) offset widths =
      ((table.get (view.byteAt offset.toNat)).decode (.flat view) (offset + 1) widths >>=
        fun operands =>
          pure { offset, instruction := table.get (view.byteAt offset.toNat), operands }) := by
  have hcode : view.read8 offset = .ok (view.byteAt offset.toNat) :=
    (View.read8_eq_ok_iff view offset _).mpr ⟨inside, rfl, trivial⟩
  rw [decodeAt_flat, hcode]
  rfl

/-- An instruction whose length is known is read when the view extends over it. -/
theorem bounded_decodeAt (inside : offset.toNat < view.length) {length : Nat}
    (h : (table.get (view.byteAt offset.toNat)).operandLength widths = .ok length) :
    view.Bounded (offset.toNat + 1 + length) (table.decodeAt (.flat view) offset widths) := by
  have next : (offset + 1).toNat = offset.toNat + 1 := view.toNat_add_one inside
  have behind : (offset + 1).toNat ≤ view.length := by omega
  have hdecode := Instruction.bounded_decode h view behind
  rw [next] at hdecode
  rw [decodeAt_inside table inside widths]
  exact hdecode.map _

/-- A record has the length that the instruction at its position has under the widths. -/
theorem operandLength_of_decodeAt {record : Record}
    (read : table.decodeAt (.flat view) offset widths = .ok record) :
    offset.toNat < view.length ∧
      (table.get (view.byteAt offset.toNat)).operandLength widths =
        .ok record.operands.length := by
  obtain ⟨-, -, inside⟩ := exists_code_of_decodeAt read
  rw [decodeAt_inside table inside widths, bind_pure_eq_ok_iff] at read
  obtain ⟨operands, decoded, rfl⟩ := read
  exact ⟨inside, Instruction.operandLength_of_decode decoded⟩

/-- A record lies where it was looked for and inside the view, so positions do not wrap in it. -/
theorem place_of_decodeAt {record : Record}
    (read : table.decodeAt (.flat view) offset widths = .ok record) :
    record.offset = offset ∧ offset.toNat + record.length ≤ view.length ∧
      record.next.toNat = offset.toNat + record.length := by
  obtain ⟨inside, hlength⟩ := operandLength_of_decodeAt read
  have here := (offset_of_decodeAt read).1
  have hbounded := bounded_decodeAt inside hlength
  rw [read] at hbounded
  cases hbounded with
  | inside room _ =>
    have within : offset.toNat + record.length ≤ view.length := by
      rw [Record.length]
      omega
    refine ⟨here, within, ?_⟩
    rw [Record.next, here]
    exact View.toNat_add_ofNat within

end DispatchTable

/-- The width of an operand is fixed by the mode, or by the widths that the operation goes by. -/
theorem exists_operandLength_standardEncodings (widths : Widths) :
    standardEncodings.all (fun encoding => encoding.2.operandLength?.isSome ||
      (encoding.1.immediateLength? widths).isSome) = true := by
  rcases widths with ⟨_ | _, _ | _⟩ <;> decide +kernel

/-- Every instruction of the standard set has a length under all widths. -/
theorem DispatchTable.exists_operandLength_standard (code : UInt8) (widths : Widths) :
    ∃ length, (standard.get code).operandLength widths = .ok length := by
  have member : standard.get code ∈ Registry.standard := registry_standard ▸ get_mem_standard code
  obtain ⟨i, bound, same⟩ := List.mem_mapIdx.mp member
  have known := List.all_eq_true.mp (exists_operandLength_standardEncodings widths) _
    (List.getElem_mem bound)
  rw [← same, Instruction.operandLength]
  dsimp only
  split
  · cases fixed : standardEncodings[i].2.operandLength? with
    | some length => exact ⟨length, rfl⟩
    | none =>
      rw [fixed, Option.isSome_none, Bool.false_or, Option.isSome_iff_exists] at known
      obtain ⟨length, known⟩ := known
      rw [known]
      exact ⟨length, rfl⟩
  · exact ⟨0, rfl⟩

/-- With the standard table an instruction inside the view cannot be read exactly when it runs past
the end, and that is what the fault says. -/
theorem DispatchTable.decodeAt_standard_cases {view : View} {offset : UInt32}
    (inside : offset.toNat < view.length) (widths : Widths) :
    (¬ standard.RunsPast view offset widths ∧
        ∃ record, standard.decodeAt (.flat view) offset widths = .ok record) ∨
      standard.RunsPast view offset widths ∧
        ∃ position, standard.decodeAt (.flat view) offset widths =
          .error (.outOfRange position view.length) := by
  obtain ⟨length, hlength⟩ := exists_operandLength_standard (view.byteAt offset.toNat) widths
  have hbounded := bounded_decodeAt inside hlength
  generalize standard.decodeAt (.flat view) offset widths = outcome at hbounded
  cases hbounded with
  | inside room record =>
    refine .inl ⟨?_, record, rfl⟩
    rintro ⟨other, hother, cut⟩
    cases hlength.symm.trans hother
    omega
  | outside cut position => exact .inr ⟨⟨length, hlength, cut⟩, position, rfl⟩

/-! ## Items -/

/-- From one position to another the records lie one behind another, with no byte between them and
none in two of them. -/
inductive Tiles : Nat → List Record → Nat → Prop
  | nil (position : Nat) : Tiles position [] position
  | cons {record : Record} {rest : List Record} {last : Nat}
    (more : Tiles (record.offset.toNat + record.length) rest last) :
    Tiles record.offset.toNat (record :: rest) last

/-- The positions of the bytes of a record. -/
def Record.positions (record : Record) : List Nat :=
  List.range' record.offset.toNat record.length

/-- Records that tile a range have each of its positions once and in order. -/
theorem Tiles.positions {first last : Nat} {records : List Record}
    (h : Tiles first records last) :
    first ≤ last ∧ records.flatMap Record.positions = List.range' first (last - first) := by
  induction h with
  | nil position => exact ⟨Nat.le_refl _, by simp⟩
  | @cons record rest last more ih =>
    obtain ⟨forward, same⟩ := ih
    refine ⟨by omega, ?_⟩
    have split : last - record.offset.toNat =
        record.length + (last - (record.offset.toNat + record.length)) := by omega
    rw [List.flatMap_cons, same, split, Record.positions, List.range'_append_1]

/-- What a walk comes upon, in order, the reason for its end last. -/
def Disassembly.items (found : Disassembly) : List (Except Fault Record) :=
  found.records.toList.map .ok ++ found.fault.toList.map .error

namespace Disassembler

/-- Asked again and again the walk yields the items, and `last` is what is left of it. -/
inductive Yields : Disassembler → List (Except Fault Record) → Disassembler → Prop
  | nil (walk : Disassembler) : Yields walk [] walk
  | cons {walk next last : Disassembler} {item : Except Fault Record}
    {items : List (Except Fault Record)} (h : walk.next? = some (item, next))
    (more : Yields next items last) : Yields walk (item :: items) last

variable {walk next last : Disassembler} {items : List (Except Fault Record)}

/-- Two walks to the end are the same walk. -/
theorem Yields.unique (h : walk.Yields items last) (ended : last.next? = none)
    {items' : List (Except Fault Record)} {last' : Disassembler} (h' : walk.Yields items' last')
    (ended' : last'.next? = none) : items = items' ∧ last = last' := by
  induction h generalizing items' with
  | nil walk =>
    cases h' with
    | nil _ => exact ⟨rfl, rfl⟩
    | cons hnext _ => cases ended.symm.trans hnext
  | cons hnext _ ih =>
    cases h' with
    | nil _ => cases ended'.symm.trans hnext
    | cons hnext' more' =>
      cases hnext.symm.trans hnext'
      obtain ⟨same, rfl⟩ := ih ended more'
      exact ⟨congrArg _ same, rfl⟩

/-- A walk can be interrupted between any two items. -/
theorem Yields.split {passed : List (Except Fault Record)}
    (h : walk.Yields (passed ++ items) last) :
    ∃ middle, walk.Yields passed middle ∧ middle.Yields items last := by
  induction passed generalizing walk with
  | nil => exact ⟨walk, .nil walk, h⟩
  | cons item rest ih =>
    cases h with
    | cons hnext more =>
      obtain ⟨middle, first, second⟩ := ih more
      exact ⟨middle, .cons hnext first, second⟩

/-- What a walk keeps as it goes on. -/
structure SameSettings (walk next : Disassembler) : Prop where
  table : next.table = walk.table
  bus : next.bus = walk.bus
  follow : next.follow = walk.follow
  emulation : next.emulation = walk.emulation

/-- A walk that goes on is known by its settings, where it is, and the widths that it holds. -/
theorem SameSettings.eq (h : walk.SameSettings next) (going : next.failed = walk.failed) :
    next = { walk with offset := next.offset, widths := next.widths } := by
  obtain ⟨table, bus, offset, widths, follow, emulation, failed⟩ := next
  obtain ⟨rfl, rfl, rfl, rfl⟩ := h
  cases going
  rfl

/-- What one item does to a walk: a record is passed, and a fault leaves the walk in front of the
instruction that it is about. -/
theorem next?_cases {item : Except Fault Record} (h : walk.next? = some (item, next)) :
    (∃ record, item = .ok record ∧ next = walk.pass record ∧
        walk.table.decodeAt walk.bus walk.offset walk.widths = .ok record) ∨
      ∃ fault, item = .error fault ∧ next = { walk with failed := true } ∧
        walk.table.decodeAt walk.bus walk.offset walk.widths = .error fault := by
  unfold next? at h
  split at h
  · cases h
  · split at h
    · next record read =>
      injection h with same
      injection same with same moved
      exact .inl ⟨record, same.symm, moved.symm, read⟩
    · next fault read =>
      injection h with same
      injection same with same moved
      exact .inr ⟨fault, same.symm, moved.symm, read⟩

/-- A walk with a next item has not failed and is not at the end. -/
theorem going_of_next? {item : Except Fault Record} (h : walk.next? = some (item, next)) :
    walk.failed = false ∧ walk.offset.toNat < walk.bus.length := by
  unfold next? at h
  split at h
  · cases h
  · next going =>
    rw [isDone, Bool.or_eq_true, not_or, Bool.not_eq_true, decide_eq_true_iff, Nat.not_le] at going
    exact going

/-- A walk that has failed has nothing more to list. -/
theorem next?_of_failed (failed : walk.failed = true) : walk.next? = none := by
  rw [next?, if_pos]
  rw [isDone, failed, Bool.true_or]

/-- The next item is listed with the same settings. -/
theorem sameSettings_of_next? {item : Except Fault Record}
    (h : walk.next? = some (item, next)) : walk.SameSettings next := by
  rcases next?_cases h with ⟨record, -, rfl, -⟩ | ⟨fault, -, rfl, -⟩ <;>
    exact ⟨rfl, rfl, rfl, rfl⟩

/-- All items are listed with the same settings. -/
theorem Yields.sameSettings (h : walk.Yields items last) : walk.SameSettings last := by
  induction h with
  | nil walk => exact ⟨rfl, rfl, rfl, rfl⟩
  | cons hnext _ ih =>
    have first := sameSettings_of_next? hnext
    exact ⟨ih.table.trans first.table, ih.bus.trans first.bus, ih.follow.trans first.follow,
      ih.emulation.trans first.emulation⟩

/-- A walk goes on behind what it has yielded. -/
theorem Yields.snoc {middle : Disassembler} {item : Except Fault Record}
    (h : walk.Yields items middle) (more : middle.next? = some (item, last)) :
    walk.Yields (items ++ [item]) last := by
  induction h with
  | nil walk => exact .cons more (.nil last)
  | cons hnext _ ih => exact .cons hnext (ih more)

/-- Records do not keep a walk from going on. -/
theorem Yields.failed_eq {records : List Record} (h : walk.Yields (records.map .ok) last) :
    last.failed = walk.failed := by
  induction records generalizing walk with
  | nil =>
    cases h
    rfl
  | cons record rest ih =>
    cases h with
    | cons hnext more =>
      obtain ⟨-, rfl⟩ := decodeAt_of_next? hnext
      have same := ih more
      exact same

/-! ## Walks to the end -/

/-- What a whole walk leaves behind: it yields its items, then nothing more, and when the last item
is a fault the walk stands in front of the instruction that it is about. -/
structure Completes (walk : Disassembler) (records : List Record) (fault : Option Fault)
    (final : Disassembler) : Prop where
  yields : walk.Yields (records.map .ok ++ fault.toList.map .error) final
  ended : final.next? = none
  failed : walk.failed = false → final.failed = fault.isSome
  stands : ∀ why, fault = some why → final.offset.toNat < final.bus.length ∧
    final.table.decodeAt final.bus final.offset final.widths = .error why

/-- Walking on completes the walk, by induction on the walk. -/
theorem completes_walkOn (walk : Disassembler) (found : Array Record) :
    ∃ records, (walk.walkOn found).records.toList = found.toList ++ records ∧
      walk.Completes records (walk.walkOn found).fault (walk.walkOn found).final := by
  induction walk, found using walkOn.induct with
  | case1 walk found h =>
    rw [walkOn_of_end h]
    refine ⟨[], (List.append_nil _).symm, .nil walk, h, fun going => going, ?_⟩
    intro why same
    cases same
  | case2 walk found fault next h =>
    rcases next?_cases h with ⟨record, same, -, -⟩ | ⟨why, same, rfl, unread⟩
    · cases same
    · cases same
      rw [walkOn_of_fault h]
      refine ⟨[], (List.append_nil _).symm, .cons h (.nil _), next?_of_failed rfl,
        fun _ => rfl, ?_⟩
      intro why same
      cases same
      exact ⟨(going_of_next? h).2, unread⟩
  | case3 walk found record next h ih =>
    obtain ⟨records, hrecords, completes⟩ := ih
    rw [walkOn_of_record h]
    refine ⟨record :: records, ?_, .cons h completes.yields, completes.ended, ?_,
      completes.stands⟩
    · rw [hrecords, Array.toList_push, List.append_assoc]
      rfl
    · intro going
      obtain ⟨-, rfl⟩ := decodeAt_of_next? h
      exact completes.failed going

/-- The walk from the beginning completes. -/
theorem completes_run (walk : Disassembler) :
    walk.Completes walk.run.records.toList walk.run.fault walk.run.final := by
  obtain ⟨records, same, completes⟩ := walk.completes_walkOn #[]
  rw [List.nil_append] at same
  rw [run, same]
  exact completes

/-- A run of the walk yields what it lists. -/
theorem yields_run (walk : Disassembler) : walk.Yields walk.run.items walk.run.final :=
  walk.completes_run.yields

/-- What a walk yields up to its end is what running it comes upon. -/
theorem Yields.items_run (h : walk.Yields items last) (ended : last.next? = none) :
    walk.run.items = items :=
  (walk.yields_run.unique walk.completes_run.ended h ended).1

/-! ## Flat views -/

variable {view : View}

/-- Records tile what a walk has passed, and do not reach over the end of the view. By induction on
the walk; an item that is no record does not move it. -/
theorem Yields.tiles (h : walk.Yields items last) (flat : walk.bus = .flat view)
    {records : List Record} {fault : Option Fault}
    (same : items = records.map .ok ++ fault.toList.map .error) :
    Tiles walk.offset.toNat records last.offset.toNat ∧
      (walk.offset.toNat ≤ view.length → last.offset.toNat ≤ view.length) := by
  induction h generalizing records with
  | nil walk =>
    cases records with
    | nil => exact ⟨.nil _, fun inside => inside⟩
    | cons _ _ => cases same
  | @cons walk next last item items hnext more ih =>
    rcases next?_cases hnext with ⟨record, rfl, rfl, read⟩ | ⟨why, rfl, rfl, -⟩
    · cases records with
      | nil => cases fault <;> cases same
      | cons first rest =>
        rw [List.map_cons, List.cons_append, List.cons.injEq] at same
        obtain ⟨hfirst, hrest⟩ := same
        cases hfirst
        rw [flat] at read
        obtain ⟨here, room, behind⟩ := DispatchTable.place_of_decodeAt read
        have moved : (walk.pass record).offset.toNat = walk.offset.toNat + record.length := behind
        obtain ⟨tiles, within⟩ := ih flat hrest
        rw [moved, ← here] at tiles
        rw [← here]
        exact ⟨.cons tiles, fun _ => within (by omega)⟩
    · -- Nothing comes behind a fault.
      cases more with
      | cons hnext' _ => cases (next?_of_failed rfl).symm.trans hnext'
      | nil _ =>
        cases records with
        | nil => exact ⟨.nil _, fun inside => inside⟩
        | cons _ _ => cases same

/-- A walk that goes on decodes where it is. -/
theorem next?_of_going (going : walk.isDone = false) :
    walk.next? = match walk.table.decodeAt walk.bus walk.offset walk.widths with
      | .ok record => some (.ok record, walk.pass record)
      | .error fault => some (.error fault, { walk with failed := true }) := by
  rw [next?, going]
  rfl

/-- With the standard table the next item inside the view is a fault exactly when the instruction
runs past the end. -/
theorem next?_standard (standard : walk.table = .standard) (flat : walk.bus = .flat view)
    (going : walk.isDone = false) :
    (∃ fault next, walk.next? = some (.error fault, next)) ↔
      DispatchTable.standard.RunsPast view walk.offset walk.widths := by
  have inside : walk.offset.toNat < view.length := by
    rw [isDone, flat, Bool.or_eq_false_iff, decide_eq_false_iff_not, Nat.not_le] at going
    exact going.2
  have hnext := next?_of_going going
  rw [standard, flat] at hnext
  rcases DispatchTable.decodeAt_standard_cases inside walk.widths with
    ⟨fits, record, read⟩ | ⟨cut, position, unread⟩
  · rw [read] at hnext
    constructor
    · rintro ⟨fault, next, h⟩
      cases hnext.symm.trans h
    · intro cut
      exact absurd cut fits
  · rw [unread] at hnext
    constructor
    · intro _
      exact cut
    · intro _
      exact ⟨_, _, hnext⟩

/-- A walk over a flat view ends after finitely many items, which are records and at most one fault
behind them. The records tile the view from the start on. A walk without a fault ends exactly at the
end of the view, and there are no items when it starts there or further on; a walk with a fault is
left in front of the instruction that cannot be read. With the standard table every fault is an
access out of range, and wherever the walk comes to inside the view the next item is a fault exactly
when the instruction there runs past the end. A fresh walk that begins at a record, under the widths
that are held there, comes upon exactly the items that remain. -/
theorem run_tiles (table : DispatchTable) (view : View) (start : UInt32) (widths : Widths)
    (follow emulation : Bool) :
    let walk : Disassembler :=
      { table, bus := .flat view, offset := start, widths, follow, emulation }
    let found := walk.run
    walk.Yields found.items found.final ∧ found.final.next? = none ∧
      Tiles start.toNat found.records.toList found.final.offset.toNat ∧
      found.records.toList.flatMap Record.positions =
        List.range' start.toNat (found.final.offset.toNat - start.toNat) ∧
      (view.length ≤ start.toNat → found.items = []) ∧
      (start.toNat < view.length → found.fault = none →
        found.final.offset.toNat = view.length) ∧
      (∀ fault, found.fault = some fault → found.final.offset.toNat < view.length ∧
        table.decodeAt (.flat view) found.final.offset found.final.widths = .error fault) ∧
      (table = .standard →
        (∀ fault, found.fault = some fault →
          ∃ position, fault = .outOfRange position view.length) ∧
        ∀ passed middle, walk.Yields passed middle → middle.isDone = false →
          ((∃ fault next, middle.next? = some (.error fault, next)) ↔
            DispatchTable.standard.RunsPast view middle.offset middle.widths)) ∧
      ∀ passed record rest, found.items = passed ++ .ok record :: rest →
        ∃ middle, walk.Yields passed middle ∧ middle.offset = record.offset ∧
          let fresh : Disassembler :=
            { table, bus := .flat view, offset := record.offset, widths := middle.widths, follow,
              emulation }
          fresh.run.items = .ok record :: rest := by
  intro walk found
  have completes := walk.completes_run
  have settings := completes.yields.sameSettings
  have table_eq : found.final.table = table := settings.table
  have bus_eq : found.final.bus = .flat view := settings.bus
  have flat : walk.bus = .flat view := rfl
  obtain ⟨tiles, within⟩ := completes.yields.tiles flat rfl
  have stands (fault : Fault) (h : found.fault = some fault) :
      found.final.offset.toNat < view.length ∧
        table.decodeAt (.flat view) found.final.offset found.final.widths = .error fault := by
    have stands := completes.stands fault h
    change found.final.offset.toNat < found.final.bus.length ∧
      found.final.table.decodeAt found.final.bus _ _ = _ at stands
    rw [table_eq, bus_eq] at stands
    exact stands
  refine ⟨walk.yields_run, completes.ended, tiles, tiles.positions.2, ?_, ?_, stands, ?_, ?_⟩
  · intro beyond
    have done : walk.next? = none := by
      rw [next?, if_pos]
      exact decide_eq_true beyond
    exact (Yields.nil walk).items_run done
  · intro inside clean
    have going : found.final.failed = false := by
      have failed := completes.failed rfl
      rw [failed]
      exact congrArg Option.isSome clean
    have done := done_of_next? going completes.ended
    rw [bus_eq] at done
    exact Nat.le_antisymm (within (Nat.le_of_lt inside)) done
  · intro standard
    constructor
    · intro fault h
      obtain ⟨inside, unread⟩ := stands fault h
      rw [standard] at unread
      rcases DispatchTable.decodeAt_standard_cases inside found.final.widths with
        ⟨-, record, read⟩ | ⟨-, position, cut⟩
      · cases read.symm.trans unread
      · exact ⟨position, Except.error.inj (unread.symm.trans cut)⟩
    · intro passed middle yields going
      have settings := yields.sameSettings
      exact next?_standard (settings.table.trans standard) settings.bus going
  · intro passed record rest same
    have yields := walk.yields_run
    change walk.Yields found.items found.final at yields
    rw [same] at yields
    obtain ⟨middle, first, second⟩ := yields.split
    cases second with
    | @cons _ next _ _ _ hnext more =>
      obtain ⟨read, -⟩ := decodeAt_of_next? hnext
      have here := (DispatchTable.offset_of_decodeAt read).1
      refine ⟨middle, first, here.symm, ?_⟩
      -- The fresh walk is the one that was interrupted.
      have resumed := first.sameSettings.eq (going_of_next? hnext).1
      rw [← here] at resumed
      have remaining := (Yields.cons hnext more).items_run completes.ended
      rw [resumed] at remaining
      exact remaining

/-- The last byte of the smallest memory, which is zero, is a `BRK` whose operand is cut off, so a
walk from there has a fault for its only item. -/
theorem run_tiles_cut_off :
    let view := View.whole Memory.least
    let walk : Disassembler := { table := .standard, bus := .flat view, offset := 0x1FF }
    ∃ fault, walk.run.items = [.error fault] := by
  intro view walk
  have hlength : view.length = 0x200 := Memory.size_least
  have registered : DispatchTable.standard.registry = Registry.standard := by
    rw [DispatchTable.standard]
  let brk : Instruction := ⟨0, .brk, .immediate⟩
  have member : brk ∈ DispatchTable.standard.registry := by
    rw [registered]
    exact List.mem_mapIdx.mpr ⟨0, by rw [length_standardEncodings]; decide, rfl⟩
  have zero : view.byteAt (0x1FF : UInt32).toNat = brk.code := Memory.byte_least _
  have cut : DispatchTable.standard.RunsPast view 0x1FF {} := by
    refine ⟨1, ?_, ?_⟩
    · rw [zero, DispatchTable.get_of_mem member]
      rfl
    · rw [hlength]
      decide
  have inside : ¬ view.length ≤ (0x1FF : UInt32).toNat := by
    rw [hlength]
    decide
  have going : walk.isDone = false := by
    rw [isDone, Bool.or_eq_false_iff, decide_eq_false_iff_not]
    exact ⟨rfl, inside⟩
  have standard := (run_tiles .standard view 0x1FF {} false false).2.2.2.2.2.2.2.1 rfl
  obtain ⟨fault, next, hnext⟩ := (standard.2 [] walk (.nil walk) going).mpr cut
  have stopped : next.next? = none := by
    rcases next?_cases hnext with ⟨_, same, -, -⟩ | ⟨_, -, rfl, -⟩
    · cases same
    · exact next?_of_failed rfl
  exact ⟨fault, (Yields.cons hnext (.nil next)).items_run stopped⟩

end Disassembler

end W65C816
