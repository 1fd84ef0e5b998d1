import W65C816.Execution.Core
import W65C816.Proofs.Program.Walk

/-!
# Accesses fail for want of memory

An access fails because a position is outside of a view, or because an address lies in space that a
banked view does not reach, and for no other reason: `Fault.OfMemory`. A flat view that extends
three bytes beyond the address space has everything that an instruction can ask for, since an access
begins at an address and takes three bytes at most, and the last address may hold an instruction
with three operand bytes behind it. `Action.Supplied` says both of an action at once, and sequencing
keeps it, so the accesses of this file are all that has to be known of memory.
-/

set_option autoImplicit false

namespace W65C816

/-! ## Actions that memory supplies -/

/-- There is no memory where something was looked for. -/
inductive Fault.OfMemory : Fault → Prop
  | outOfRange (position length : Nat) : OfMemory (.outOfRange position length)
  | accessViolation (address : UInt32) : OfMemory (.accessViolation address)

/-- The bus has a byte for everything that an instruction can ask for. -/
def Bus.Spacious (bus : Bus) : Prop :=
  ∃ view, bus = .flat view ∧ Address.space + 3 ≤ view.length

/-- A memory of any admissible size can be had. -/
theorem Memory.exists_create {size : Nat} (bounds : leastSize ≤ size ∧ size ≤ greatestSize) :
    ∃ memory, create size = .ok memory ∧ memory.size = size := by
  have empty : (ByteArray.emptyWithCapacity size).size = 0 := rfl
  unfold create
  rw [dif_pos bounds]
  refine ⟨_, rfl, ?_⟩
  rw [Memory.size, size_pushZeros, empty, Nat.zero_add]

/-- The answer of a bus to a question is a value of the kind `good`, or a fault of memory that a
spacious bus would not have. -/
inductive Bus.Serves {α : Type} (good : α → Prop) (bus : Bus) : Except Fault α → Prop
  | ok {value : α} (h : good value) : Serves good bus (.ok value)
  | error {fault : Fault} (h : fault.OfMemory) (cramped : ¬ bus.Spacious) :
    Serves good bus (.error fault)

namespace Action

variable {ε σ α β : Type} {admitted : ε → Prop} {plenty : σ → Prop}

/-- The outcome is a value of the kind `good`, or a failure of an admitted kind. Where there was
plenty it is no failure, and there still is plenty. -/
inductive Supplies (admitted : ε → Prop) (plenty : σ → Prop) (good : α → Prop) (state : σ) :
    EStateM.Result ε σ α → Prop
  | ok {value : α} {next : σ} (h : good value) (stays : plenty state → plenty next) :
    Supplies admitted plenty good state (.ok value next)
  | error {failure : ε} {next : σ} (h : admitted failure) (cramped : ¬ plenty state) :
    Supplies admitted plenty good state (.error failure next)

/-- The action supplies a value of the kind `good` wherever there is plenty. -/
def Supplied (admitted : ε → Prop) (plenty : σ → Prop) (good : α → Prop)
    (action : EStateM ε σ α) : Prop :=
  ∀ state, Supplies admitted plenty good state (action state)

variable {good : α → Prop} {fine : β → Prop}

/-- What comes second has to be supplied for the values that the first can yield. -/
theorem Supplied.bind {first : EStateM ε σ α} {rest : α → EStateM ε σ β}
    (hfirst : Supplied admitted plenty good first)
    (hrest : ∀ value, good value → Supplied admitted plenty fine (rest value)) :
    Supplied admitted plenty fine (first >>= rest) := by
  intro state
  have h := hfirst state
  rw [bind_apply]
  generalize first state = outcome at h
  cases h with
  | error h cramped => exact .error h cramped
  | @ok value next suits stays =>
    have hlast := hrest value suits next
    change Supplies admitted plenty fine state (rest value next)
    generalize rest value next = outcome at hlast
    cases hlast with
    | ok suits stays' => exact .ok suits fun roomy => stays' (stays roomy)
    | error h cramped => exact .error h fun roomy => cramped (stays roomy)

/-- A value of the right kind is at hand. -/
theorem supplied_pure {value : α} (h : good value) :
    Supplied admitted plenty good (pure value : EStateM ε σ α) :=
  fun _ => .ok h id

end Action

/-! ## Banked views -/

namespace Banked

/-- A failure on a banked view, which is never spacious, has only to be one of memory. -/
def Fails {α : Type} : Except Fault α → Prop
  | .ok _ => True
  | .error fault => fault.OfMemory

/-- What is bounded by a view fails for want of memory. -/
theorem fails_of_bounded {α : Type} {view : View} {last : Nat} {outcome : Except Fault α}
    (h : view.Bounded last outcome) : Fails outcome := by
  cases h with
  | inside _ _ => trivial
  | outside _ _ => exact .outOfRange _ _

/-- An address that does not resolve is one without memory. -/
theorem fails_resolve (wram : View) (address : UInt32) : Fails (resolve wram address) := by
  unfold resolve
  split
  · exact Fault.OfMemory.accessViolation _
  · next position _ =>
    have hcheck := fails_of_bounded (wram.bounded_check position Nat.one_pos)
    split <;> next found => rw [found] at hcheck; exact hcheck

/-- A check on a banked view fails for want of memory. -/
theorem fails_check (wram : View) (address : UInt32) (count : Nat) :
    Fails (check wram address count) := by
  unfold check
  generalize max count 1 = count
  induction count generalizing address with
  | zero => trivial
  | succ count ih =>
    have hresolve := fails_resolve wram address
    unfold checkEach
    split
    · exact ih (address + 1)
    · next found =>
      rw [found] at hresolve
      exact hresolve

/-- A byte is not read from a banked view for want of memory. -/
theorem fails_read8 (wram : View) (address : UInt32) : Fails (read8 wram address) := by
  have hresolve := fails_resolve wram address
  unfold read8
  split
  · exact fails_of_bounded (wram.bounded_read8 _)
  · next found =>
    rw [found] at hresolve
    exact hresolve

end Banked

/-! ## Accesses of the bus -/

namespace Bus

variable {α β : Type} {good : α → Prop} {bus : Bus}

/-- A flat view serves what is bounded by what it extends over. -/
theorem serves_of_bounded {view : View} {last : Nat} {outcome : Except Fault α}
    (h : view.Bounded last outcome) (bound : last ≤ Address.space + 3) :
    Serves (fun _ => True) (.flat view) outcome := by
  cases h with
  | inside _ _ => exact .ok trivial
  | outside cut _ =>
    refine .error (.outOfRange _ _) ?_
    rintro ⟨other, same, room⟩
    cases same
    omega

/-- No banked bus is spacious. -/
theorem not_spacious_banked (wram : View) : ¬ (Bus.banked wram).Spacious := by
  rintro ⟨view, same, -⟩
  cases same

/-- A banked view is never spacious, so it only has to fail for want of memory. -/
theorem serves_of_fails {wram : View} {outcome : Except Fault α} (h : Banked.Fails outcome) :
    Serves (fun _ => True) (.banked wram) outcome := by
  cases outcome with
  | ok value => exact .ok trivial
  | error fault => exact .error h (not_spacious_banked wram)

/-- The bus serves a question and the next if it serves both. -/
theorem Serves.bind {fine : β → Prop} {outcome : Except Fault α} {rest : α → Except Fault β}
    (h : Serves good bus outcome) (hrest : ∀ value, good value → Serves fine bus (rest value)) :
    Serves fine bus (outcome >>= rest) := by
  cases h with
  | ok suits => exact hrest _ suits
  | error h cramped => exact .error h cramped

/-- A value of the right kind needs no bus. -/
theorem serves_pure {value : α} (h : good value) : Serves good bus (pure value) :=
  .ok h

/-- What is served with a value of some kind is served. -/
theorem Serves.weaken {outcome : Except Fault α} (h : Serves good bus outcome) :
    Serves (fun _ => True) bus outcome := by
  cases h with
  | ok _ => exact .ok trivial
  | error h cramped => exact .error h cramped

/-- A check of up to three bytes from an address on is served. -/
theorem serves_check (bus : Bus) {position : UInt32} (bound : position.toNat ≤ Address.space)
    {count : Nat} (positive : 0 < count) (short : count ≤ 3) :
    Serves (fun _ => True) bus (bus.check position count) := by
  cases bus with
  | flat view => exact serves_of_bounded (view.bounded_check position positive) (by omega)
  | banked wram => exact serves_of_fails (Banked.fails_check wram position count)

/-- A byte up to two behind the address space is served. -/
theorem serves_read8 (bus : Bus) {position : UInt32}
    (bound : position.toNat ≤ Address.space + 2) :
    Serves (fun _ => True) bus (bus.read8 position) := by
  cases bus with
  | flat view => exact serves_of_bounded (view.bounded_read8 position) (by omega)
  | banked wram => exact serves_of_fails (Banked.fails_read8 wram position)

/-- A position of up to two bytes behind an address does not wrap. -/
theorem toNat_add_small {position : UInt32} (bound : position.toNat ≤ Address.space)
    {count : UInt32} (short : count.toNat ≤ 2) :
    (position + count).toNat ≤ Address.space + 2 := by
  rw [Address.space] at bound ⊢
  rw [UInt32.toNat_add]
  omega

/-- A word at an address is served. -/
theorem serves_read16 (bus : Bus) {position : UInt32} (bound : position.toNat ≤ Address.space) :
    Serves (fun _ => True) bus (bus.read16 position) := by
  cases bus with
  | flat view => exact serves_of_bounded (view.bounded_read16 position) (by omega)
  | banked wram =>
    refine (serves_check _ bound Nat.two_pos (by decide)).bind fun _ _ => ?_
    refine (serves_read8 _ (Nat.le_add_right_of_le bound)).bind fun low _ => ?_
    refine (serves_read8 _ (toNat_add_small bound (by decide))).bind fun high _ => ?_
    exact serves_pure trivial

/-- A pointer of three bytes is an address. -/
theorem serves_read24 (bus : Bus) {position : UInt32} (bound : position.toNat ≤ Address.space) :
    Serves (fun pointer => pointer.toNat < Address.space) bus (bus.read24 position) := by
  cases bus with
  | flat view =>
    have served : Serves (fun _ => True) (.flat view) (view.locate position 3) :=
      serves_of_bounded (view.bounded_locate position (Nat.succ_pos 2)) (by omega)
    simp only [read24, View.read24]
    generalize view.locate position 3 = located at served
    cases served with
    | ok _ => exact .ok (Address.ofBank_lt _ _)
    | error h cramped => exact .error h cramped
  | banked wram =>
    refine (serves_check _ bound (Nat.succ_pos 2) (by decide)).bind fun _ _ => ?_
    refine (serves_read8 _ (Nat.le_add_right_of_le bound)).bind fun low _ => ?_
    refine (serves_read8 _ (toNat_add_small bound (by decide))).bind fun middle _ => ?_
    refine (serves_read8 _ (toNat_add_small bound (by decide))).bind fun high _ => ?_
    exact serves_pure (Address.ofBank_lt _ _)

/-- A number at an address is served, whatever its length. -/
theorem serves_readNumber (bus : Bus) {position : UInt32} (bound : position.toNat ≤ Address.space)
    (length : Nat) : Serves (fun _ => True) bus (bus.readNumber position length) := by
  rcases length with _ | _ | _ | length
  · exact .ok trivial
  · refine (serves_read8 bus (Nat.le_add_right_of_le bound)).bind fun byte _ => ?_
    exact serves_pure trivial
  · exact (serves_read16 bus bound).bind fun word _ => serves_pure trivial
  · exact (serves_read24 bus bound).weaken

/-- A value of either width at an address is served. -/
theorem serves_readAt (bus : Bus) (width : Width) {position : UInt32}
    (bound : position.toNat ≤ Address.space) :
    Serves (fun _ => True) bus (bus.readAt width position) := by
  cases width with
  | byte =>
    refine (serves_read8 bus (Nat.le_add_right_of_le bound)).bind fun byte _ => ?_
    exact serves_pure trivial
  | word => exact serves_read16 bus bound

/-- The action on the bus fails for want of memory alone, and a spacious bus stays spacious. -/
abbrev Supplied (action : EStateM Fault Bus α) : Prop :=
  Action.Supplied Fault.OfMemory Spacious (fun _ => True) action

/-- A question that is served is supplied. -/
theorem supplied_look {question : Bus → Except Fault α}
    (h : ∀ bus, Serves (fun _ => True) bus (question bus)) : Supplied (Action.look question) := by
  intro bus
  have served := h bus
  unfold Action.look
  generalize question bus = answer at served
  cases served with
  | ok suits => exact .ok suits id
  | error h cramped => exact .error h cramped

/-- A row of bytes that is written into a flat view leaves its length alone. -/
theorem supplies_write {position : UInt32} {values : List UInt8} (nonempty : values ≠ [])
    (bound : position.toNat + values.length ≤ Address.space + 3) (view : View) :
    Action.Supplies Fault.OfMemory Spacious (fun _ => True) (.flat view)
      (Action.place Bus.flat (View.write position values view)) := by
  have hlocate : Serves (fun _ => True) (.flat view) (view.locate position values.length) :=
    serves_of_bounded (view.bounded_locate position (List.length_pos_iff.mpr nonempty)) bound
  unfold View.write
  generalize view.locate position values.length = located at hlocate
  cases hlocate with
  | error h cramped => exact .error h cramped
  | ok _ =>
    refine .ok trivial ?_
    rintro ⟨other, same, room⟩
    cases same
    exact ⟨_, rfl, room⟩

/-- Writing a byte fails for want of memory alone. -/
theorem supplied_write8 {position : UInt32} (bound : position.toNat ≤ Address.space + 2)
    (value : UInt8) : Supplied (write8 position value) := by
  intro bus
  cases bus with
  | flat view => exact supplies_write (List.cons_ne_nil value []) (Nat.succ_le_succ bound) view
  | banked wram =>
    have hresolve := Banked.fails_resolve wram position
    have cramped := not_spacious_banked wram
    simp only [write8, Banked.write8]
    generalize Banked.resolve wram position = resolved at hresolve
    cases resolved with
    | error fault => exact .error hresolve cramped
    | ok here =>
      have hlocate := Banked.fails_of_bounded (wram.bounded_locate here Nat.one_pos)
      simp only [View.write8, View.write, List.length_singleton]
      generalize wram.locate here 1 = located at hlocate
      cases located with
      | error fault => exact .error hlocate cramped
      | ok index => exact .ok trivial fun roomy => absurd roomy cramped

/-- The bytes of a word are written one behind the other, after both were checked. -/
theorem supplied_bytewise_write16 {position : UInt32} (bound : position.toNat ≤ Address.space)
    (value : UInt16) : Supplied (Bytewise.write16 position value) := by
  have hcheck : Supplied (Action.look fun bus : Bus => bus.check position 2) :=
    supplied_look fun bus => serves_check bus bound Nat.two_pos (by decide)
  refine hcheck.bind fun _ _ => ?_
  have hlow := supplied_write8 (@toNat_add_small _ bound 0 (by decide)) (Word.low value)
  have hhigh := supplied_write8 (@toNat_add_small _ bound 1 (by decide)) (Word.high value)
  exact hlow.bind fun _ _ => hhigh.bind fun _ _ => Action.supplied_pure trivial

/-- Writing a word fails for want of memory alone. -/
theorem supplied_write16 {position : UInt32} (bound : position.toNat ≤ Address.space)
    (value : UInt16) : Supplied (write16 position value) := by
  intro bus
  cases bus with
  | flat view =>
    have room : position.toNat + 2 ≤ Address.space + 3 := by omega
    exact supplies_write (List.cons_ne_nil (Word.low value) [Word.high value]) room view
  | banked wram => exact supplied_bytewise_write16 bound value (.banked wram)

/-- Writing at either width fails for want of memory alone. -/
theorem supplied_writeAt (width : Width) {position : UInt32}
    (bound : position.toNat ≤ Address.space) (value : UInt16) :
    Supplied (writeAt width position value) := by
  cases width with
  | byte => exact supplied_write8 (Nat.le_add_right_of_le bound) _
  | word => exact supplied_write16 bound value

end Bus

end W65C816
