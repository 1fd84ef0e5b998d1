import W65C816.Proofs.Program.Fetching
import W65C816.Proofs.Program.Walk

/-!
# What a walk reads

A walk over a flat view goes forward only, and reading an instruction goes forward from its leading
byte. So what a walk comes upon depends on the length of the view and on the bytes from its start
on, and on nothing else: `View.AgreesFrom.items_run_eq`. The view holds the bytes of the records,
one behind another, from the start on, `Disassembler.Yields.holds`.
-/

set_option autoImplicit false

namespace W65C816

/-! ## Views that agree from a position on -/

namespace View

/-- Views of one length with the same bytes from a position on. -/
structure AgreesFrom (first : Nat) (view other : View) : Prop where
  length : other.length = view.length
  same : ∀ p, first ≤ p → p < view.length → other.byteAt p = view.byteAt p

namespace AgreesFrom

variable {first : Nat} {view other : View} {position : UInt32}

/-- They have one length, and accesses are checked by nothing else. -/
theorem mirrors (h : AgreesFrom first view other) : Mirrors 0 view other :=
  ⟨h.length.symm, fun p below => absurd below (Nat.not_lt_zero p)⟩

/-- The byte of an access, seen from the start of the view. -/
theorem byte_eq (h : AgreesFrom first view other) {p i : Nat} (later : first ≤ p)
    (inside : p + i < view.length) :
    other.memory.byte (other.start + p + i) = view.memory.byte (view.start + p + i) := by
  rw [Nat.add_assoc, Nat.add_assoc]
  exact h.same (p + i) (by omega) inside

/-- Views that agree from a position on read the same byte there. -/
theorem read8_eq (h : AgreesFrom first view other) (later : first ≤ position.toNat) :
    other.read8 position = view.read8 position := by
  unfold read8
  rcases h.mirrors.locate_cases position 1 with ⟨fault, left, right⟩ | ⟨left, right, room⟩
  · rw [left, right]
  · have byte := h.byte_eq later (show position.toNat + 0 < view.length by omega)
    rw [left, right]
    exact congrArg Except.ok byte

/-- Views that agree from a position on read the same word there. -/
theorem read16_eq (h : AgreesFrom first view other) (later : first ≤ position.toNat) :
    other.read16 position = view.read16 position := by
  unfold read16
  rcases h.mirrors.locate_cases position 2 with ⟨fault, left, right⟩ | ⟨left, right, room⟩
  · rw [left, right]
  · have low := h.byte_eq later (show position.toNat + 0 < view.length by omega)
    have high := h.byte_eq later (show position.toNat + 1 < view.length by omega)
    rw [Nat.add_zero, Nat.add_zero] at low
    rw [left, right]
    simp only [low, high]

/-- Views that agree from a position on read the same address there. -/
theorem read24_eq (h : AgreesFrom first view other) (later : first ≤ position.toNat) :
    other.read24 position = view.read24 position := by
  unfold read24
  rcases h.mirrors.locate_cases position 3 with ⟨fault, left, right⟩ | ⟨left, right, room⟩
  · rw [left, right]
  · have low := h.byte_eq later (show position.toNat + 0 < view.length by omega)
    have middle := h.byte_eq later (show position.toNat + 1 < view.length by omega)
    have high := h.byte_eq later (show position.toNat + 2 < view.length by omega)
    rw [Nat.add_zero, Nat.add_zero] at low
    rw [left, right]
    simp only [low, middle, high]

/-- Views that agree from a position on read the same number there. -/
theorem readNumber_eq (h : AgreesFrom first view other) (later : first ≤ position.toNat)
    (length : Nat) :
    Bus.readNumber (.flat other) position length = Bus.readNumber (.flat view) position length := by
  rcases length with _ | _ | _ | length
  · simp only [Bus.readNumber]
  · simp only [Bus.readNumber, Bus.read8, h.read8_eq later]
  · simp only [Bus.readNumber, Bus.read16, h.read16_eq later]
  · simp only [Bus.readNumber, Bus.read24, h.read24_eq later]

/-- Operands are read alike. The second bank of a block move is looked for only behind the check of
both, so that its position does not wrap. -/
theorem decode_eq (h : AgreesFrom first view other) (later : first ≤ position.toNat)
    (instruction : Instruction) (widths : Widths) :
    instruction.decode (.flat other) position widths =
      instruction.decode (.flat view) position widths := by
  cases known : instruction.operandLength widths with
  | error fault =>
    unfold Instruction.decode
    rw [known]
    rfl
  | ok length =>
    by_cases move : instruction.mode = .blockMove
    · cases length with
      | zero =>
        unfold Instruction.decode
        rw [known, move]
        rfl
      | succ length =>
        have decoded (view : View) : instruction.decode (.flat view) position widths =
            (view.check position 2 >>= fun _ => view.read8 position >>= fun destination =>
              view.read8 (position + 1) >>= fun source =>
                pure { first := source.toUInt32, second := destination.toUInt32
                       length := length + 1 }) := by
          unfold Instruction.decode
          rw [known, move]
          rcases length with _ | _ | length <;> rfl
        rw [decoded, decoded, ← h.mirrors.check_eq]
        cases checked : view.check position 2 with
        | error fault => rfl
        | ok _ =>
          have room := (view.check_eq_ok_iff position 2).mp checked
          have next : (position + 1).toNat = position.toNat + 1 :=
            view.toNat_add_one (by omega)
          rw [h.read8_eq later, h.read8_eq (show first ≤ (position + 1).toNat by omega)]
    · rw [Instruction.decode_number move known, Instruction.decode_number move known,
        h.readNumber_eq later]

/-- Views that agree from a position on decode alike there. -/
theorem decodeAt_eq (h : AgreesFrom first view other) {offset : UInt32}
    (later : first ≤ offset.toNat) (table : DispatchTable) (widths : Widths) :
    table.decodeAt (.flat other) offset widths = table.decodeAt (.flat view) offset widths := by
  rw [DispatchTable.decodeAt_flat, DispatchTable.decodeAt_flat, h.read8_eq later]
  cases read : view.read8 offset with
  | error fault => rfl
  | ok code =>
    have next : (offset + 1).toNat = offset.toNat + 1 :=
      view.toNat_add_one ((View.read8_eq_ok_iff view offset code).mp read).1
    have behind : first ≤ (offset + 1).toNat := by omega
    change ((table.get code).decode (.flat other) (offset + 1) widths >>= _) =
      ((table.get code).decode (.flat view) (offset + 1) widths >>= _)
    rw [h.decode_eq behind]

end AgreesFrom

end View

/-! ## Walks -/

namespace Disassembler

variable {walk last : Disassembler} {items : List (Except Fault Record)} {view other : View}

/-- A walk without a next item is done. -/
theorem isDone_of_next? (h : walk.next? = none) : walk.isDone = true := by
  unfold next? at h
  split at h
  · next done => exact done
  · split at h <;> cases h

/-- A walk does not go back. -/
theorem Yields.offset_le (h : walk.Yields items last) (flat : walk.bus = .flat view) :
    walk.offset.toNat ≤ last.offset.toNat := by
  induction h with
  | nil walk => exact Nat.le_refl _
  | @cons walk next last item items hnext _ ih =>
    rcases next?_cases hnext with ⟨record, -, rfl, read⟩ | ⟨fault, -, rfl, -⟩
    · rw [flat] at read
      obtain ⟨-, -, behind⟩ := DispatchTable.place_of_decodeAt read
      have moved : (walk.pass record).offset.toNat = walk.offset.toNat + record.length := behind
      have more := ih flat
      omega
    · exact ih flat

/-- When a walk is over is a matter of the length of the view. -/
theorem isDone_of_length (same : other.length = view.length) (flat : walk.bus = .flat view) :
    isDone { walk with bus := .flat other } = walk.isDone := by
  have length : walk.bus.length = other.length := by
    rw [flat, same]
    rfl
  rw [isDone, isDone, length]
  rfl

/-- The next item, where nothing but the view is another one. -/
theorem next?_of_agreesFrom (agrees : view.AgreesFrom walk.offset.toNat other)
    (flat : walk.bus = .flat view) {item : Except Fault Record} {next : Disassembler}
    (h : walk.next? = some (item, next)) :
    Disassembler.next? { walk with bus := .flat other } =
      some (item, { next with bus := .flat other }) := by
  obtain ⟨going, inside⟩ := going_of_next? h
  have onward : isDone { walk with bus := .flat other } = false := by
    rw [isDone_of_length agrees.length flat, isDone, going, Bool.false_or,
      decide_eq_false_iff_not, Nat.not_le]
    exact inside
  have same := agrees.decodeAt_eq (Nat.le_refl _) walk.table walk.widths
  rw [next?_of_going onward, same]
  rcases next?_cases h with ⟨record, rfl, rfl, read⟩ | ⟨fault, rfl, rfl, read⟩
  · rw [← flat, read]
    rfl
  · rw [← flat, read]

/-- The same items come from another view that has the same bytes from the start of the walk on, by
induction on the walk. -/
theorem Yields.of_agreesFrom (h : walk.Yields items last)
    (agrees : view.AgreesFrom walk.offset.toNat other) (flat : walk.bus = .flat view) :
    Yields { walk with bus := .flat other } items { last with bus := .flat other } := by
  induction h with
  | nil walk => exact .nil _
  | @cons walk next last item items hnext _ ih =>
    have forward := (Yields.cons hnext (.nil next)).offset_le flat
    have settings := sameSettings_of_next? hnext
    refine .cons (next?_of_agreesFrom agrees flat hnext) (ih ?_ (settings.bus.trans flat))
    exact ⟨agrees.length, fun p first => agrees.same p (Nat.le_trans forward first)⟩

end Disassembler

/-- What a walk comes upon is in the length of the view and in its bytes from the start on. -/
theorem View.AgreesFrom.items_run_eq {walk : Disassembler} {view other : View}
    (agrees : view.AgreesFrom walk.offset.toNat other) (flat : walk.bus = .flat view) :
    (Disassembler.run { walk with bus := .flat other }).items = walk.run.items := by
  have yields := walk.yields_run.of_agreesFrom agrees flat
  have settings := walk.yields_run.sameSettings
  have done := Disassembler.isDone_of_next? walk.completes_run.ended
  refine yields.items_run ?_
  rw [Disassembler.next?, if_pos]
  rw [Disassembler.isDone_of_length agrees.length (settings.bus.trans flat), done]

/-! ## The bytes of the records -/

/-- A row that lies behind a row makes one row with it. -/
theorem View.Holds.append {view : View} {position : Nat} {row more : List UInt8}
    (first : view.Holds position row) (second : view.Holds (position + row.length) more) :
    view.Holds position (row ++ more) := by
  induction row generalizing position with
  | nil => exact second
  | cons value rest ih =>
    refine ⟨first.1, first.2.1, ih first.2.2 ?_⟩
    rw [List.length_cons, Nat.add_comm rest.length, ← Nat.add_assoc] at second
    exact second

/-- Two rows at one position are the same as far as both go. -/
theorem View.Holds.eq_take {view : View} {position : Nat} {row values : List UInt8}
    (shorter : view.Holds position row) (longer : view.Holds position values)
    (bound : row.length ≤ values.length) : row = values.take row.length := by
  refine List.ext_getElem (by rw [List.length_take, Nat.min_eq_left bound]) fun k inside _ => ?_
  rw [List.getElem_take, ← shorter.byteAt inside,
    longer.byteAt (Nat.lt_of_lt_of_le inside bound)]

namespace Disassembler

variable {walk last : Disassembler} {view : View}

/-- The view holds the bytes of the records, one behind another, from the start of the walk on. By
induction on the walk. -/
theorem Yields.holds {records : List Record} {fault : Option Fault}
    {items : List (Except Fault Record)} (h : walk.Yields items last)
    (flat : walk.bus = .flat view)
    (same : items = records.map .ok ++ fault.toList.map .error) :
    view.Holds walk.offset.toNat (records.flatMap Record.bytes) ∧
      walk.offset.toNat + (records.flatMap Record.bytes).length = last.offset.toNat := by
  induction h generalizing records with
  | nil walk =>
    cases records with
    | nil => exact ⟨trivial, rfl⟩
    | cons _ _ => cases same
  | @cons walk next last item items hnext more ih =>
    rcases next?_cases hnext with ⟨record, rfl, rfl, read⟩ | ⟨why, rfl, rfl, -⟩
    · cases records with
      | nil => cases fault <;> cases same
      | cons first rest =>
        rw [List.map_cons, List.cons_append, List.cons.injEq] at same
        obtain ⟨hfirst, hrest⟩ := same
        cases hfirst
        rw [flat] at read
        obtain ⟨-, -, behind⟩ := DispatchTable.place_of_decodeAt read
        have moved : (walk.pass record).offset.toNat =
            walk.offset.toNat + record.bytes.length := by
          rw [DispatchTable.length_bytes read]
          exact behind
        obtain ⟨onward, long⟩ := ih flat hrest
        rw [moved] at onward long
        rw [List.flatMap_cons, List.length_append]
        exact ⟨((DispatchTable.decodeAt_eq_ok_iff_holds read view).mp read).append onward,
          by omega⟩
    · -- Nothing comes behind a fault.
      cases more with
      | cons hnext' _ => cases (next?_of_failed rfl).symm.trans hnext'
      | nil _ =>
        cases records with
        | nil => exact ⟨trivial, rfl⟩
        | cons _ _ => cases same

end Disassembler

end W65C816
