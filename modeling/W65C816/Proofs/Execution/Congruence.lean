import W65C816.Execution.Operation
import W65C816.Proofs.Execution.Simulation

/-!
# Cores that effects take alike

Two cores are compared by a relation between their registers and one between their buses. A relation
between buses is a bisimulation when no access tells related buses apart and writing the same to
both keeps them related. A relation between registers is a congruence when it lets them differ in
`b` alone and does not look at anything but `b` and the mode.

No effect reads the bus but by accesses, and no address, vector or byte on the stack hangs on `b`.
Whatever is in an effect beyond that is its own: `Effect.Congruent` asks for it kind by kind, and
`Effect.congruent_perform` puts an instruction together again. The walk through the effects is made
here, once for every bisimulation and every congruence.
-/

set_option autoImplicit false

namespace W65C816

open Addressing

namespace Action

variable {ε σ τ σ' τ' α γ : Type}

/-- Outcomes on parts that match are outcomes on wholes that match. -/
theorem Matches.place {relation : σ → τ → Prop} {relation' : σ' → τ' → Prop} {build : σ → σ'}
    {build' : τ → τ'} (h : ∀ {part other}, relation part other → relation' (build part)
      (build' other)) {outcome : EStateM.Result ε σ α} {outcome' : EStateM.Result ε τ α}
    (hmatch : Matches relation outcome outcome') :
    Matches relation' (place build outcome) (place build' outcome') := by
  cases hmatch with
  | ok value related => exact .ok value (h related)
  | error failure related => exact .error failure (h related)

/-- An action comes to one end in one state. -/
theorem simulates_eq (action : EStateM ε σ α) : Simulates Eq action action := by
  rintro state _ rfl
  cases action state with
  | ok value next => exact .ok value rfl
  | error failure next => exact .error failure rfl

/-- Doing the same to each item of a list keeps a simulation that each item keeps. -/
theorem simulates_forM {relation : σ → τ → Prop} {action : γ → EStateM ε σ Unit}
    {action' : γ → EStateM ε τ Unit}
    (h : ∀ item, Simulates relation (action item) (action' item)) (items : List γ) :
    Simulates relation (items.forM action) (items.forM action') := by
  induction items with
  | nil => exact simulates_pure ()
  | cons item rest ih => exact Simulates.bind (h item) fun _ => ih

/-- A question has one answer in related states. -/
theorem simulates_look {relation : σ → τ → Prop} {question : σ → Except ε α}
    {question' : τ → Except ε α}
    (same : ∀ {state other}, relation state other → question state = question' other) :
    Simulates relation (look question) (look question') := by
  intro state other related
  unfold look
  rw [← same related]
  split
  · next value _ => exact .ok value related
  · next failure _ => exact .error failure related

end Action

/-! ## Buses -/

/-- No access tells related buses apart, and writing the same to both keeps them related. -/
structure Bus.Bisimulation (relation : Bus → Bus → Prop) : Prop where
  check : ∀ {bus other}, relation bus other → ∀ position count,
    bus.check position count = other.check position count
  read8 : ∀ {bus other}, relation bus other → ∀ position,
    bus.read8 position = other.read8 position
  read16 : ∀ {bus other}, relation bus other → ∀ position,
    bus.read16 position = other.read16 position
  read24 : ∀ {bus other}, relation bus other → ∀ position,
    bus.read24 position = other.read24 position
  readBlock : ∀ {bus other}, relation bus other → ∀ position count,
    bus.readBlock position count = other.readBlock position count
  write8 : ∀ position value,
    Action.Simulates relation (Bus.write8 position value) (Bus.write8 position value)
  write16 : ∀ position value,
    Action.Simulates relation (Bus.write16 position value) (Bus.write16 position value)
  write24 : ∀ position value,
    Action.Simulates relation (Bus.write24 position value) (Bus.write24 position value)
  writeBlock : ∀ position values,
    Action.Simulates relation (Bus.writeBlock position values) (Bus.writeBlock position values)

namespace Bus.Bisimulation

variable {relation : Bus → Bus → Prop}

/-- Buses that answer alike answer alike at each width. -/
theorem readAt (h : Bisimulation relation) {bus other : Bus} (related : relation bus other)
    (width : Width) (position : UInt32) :
    bus.readAt width position = other.readAt width position := by
  cases width with
  | byte =>
    simp only [Bus.readAt]
    rw [h.read8 related]
  | word => exact h.read16 related position

/-- Buses that answer alike are written alike at each width. -/
theorem writeAt (h : Bisimulation relation) (width : Width) (position : UInt32)
    (value : UInt16) :
    Action.Simulates relation (Bus.writeAt width position value)
      (Bus.writeAt width position value) := by
  cases width with
  | byte => exact h.write8 position (Word.low value)
  | word => exact h.write16 position value

/-- Pointers are fetched by accesses, and the rest of an address is a matter of the registers. -/
theorem effectiveAddress (h : Bisimulation relation) {bus other : Bus}
    (related : relation bus other) (mode : Mode) (operand : UInt32) (r : Registers) :
    effectiveAddress mode operand r bus = effectiveAddress mode operand r other := by
  have words := h.read16 related
  have longs := h.read24 related
  cases mode <;> simp only [Addressing.effectiveAddress, words, longs]

/-- Buses that answer alike give an operand the same target. -/
theorem target (h : Bisimulation relation) {bus other : Bus} (related : relation bus other)
    (mode : Mode) (operand : UInt32) (r : Registers) :
    target mode operand r bus = target mode operand r other := by
  have addresses := fun mode => h.effectiveAddress related mode operand r
  cases mode <;> simp only [Addressing.target, addresses]

end Bus.Bisimulation

/-- Every bus is the same as itself. -/
theorem Bus.bisimulation_eq : Bisimulation Eq where
  check := by rintro _ _ rfl _ _; rfl
  read8 := by rintro _ _ rfl _; rfl
  read16 := by rintro _ _ rfl _; rfl
  read24 := by rintro _ _ rfl _; rfl
  readBlock := by rintro _ _ rfl _ _; rfl
  write8 := fun _ _ => Action.simulates_eq _
  write16 := fun _ _ => Action.simulates_eq _
  write24 := fun _ _ => Action.simulates_eq _
  writeBlock := fun _ _ => Action.simulates_eq _

/-! ## Registers -/

/-- Related registers differ in `b` alone, and whether they are related hangs on `b` and the mode
alone. -/
structure Registers.Congruence (alike : Registers → Registers → Prop) : Prop where
  others : ∀ {r s}, alike r s → ∃ b, s = { r with b }
  beside : ∀ {r : Registers} {b}, alike r { r with b } → ∀ t : Registers,
    t.emulation = r.emulation → t.b = r.b → alike t { t with b }

namespace Registers

/-- Registers that are alike stay alike under the change. -/
def Preserves (alike : Registers → Registers → Prop) (change : Registers → Registers) : Prop :=
  ∀ ⦃r s⦄, alike r s → alike (change r) (change s)

/-- Registers that are alike have the value in common. -/
def AgreeOn {α : Type} (alike : Registers → Registers → Prop) (value : Registers → α) : Prop :=
  ∀ ⦃r s⦄, alike r s → value s = value r

/-- Equality of registers is a congruence. -/
theorem congruence_eq : Congruence Eq where
  others := by
    rintro r _ rfl
    exact ⟨r.b, rfl⟩
  beside := by
    intro r b same t _ kept
    have : b = t.b := (congrArg Registers.b same).symm.trans kept.symm
    subst this
    rfl

end Registers

/-- Cores with related registers on related buses. -/
inductive Core.Paired (alike : Registers → Registers → Prop) (relation : Bus → Bus → Prop) :
    Core → Core → Prop
  | intro {r s : Registers} (h : alike r s) {bus other : Bus} (h' : relation bus other) :
    Paired alike relation ⟨r, bus⟩ ⟨s, other⟩

/-! ## Actions on the core -/

section

variable {alike : Registers → Registers → Prop} {relation : Bus → Bus → Prop} {α : Type}

namespace Exec

/-- The action takes cores in a pair to the same end, and leaves a pair behind. -/
abbrev Congruent (alike : Registers → Registers → Prop) (relation : Bus → Bus → Prop)
    (action : Exec α) : Prop :=
  Action.Simulates (Core.Paired alike relation) action action

/-- Reading the registers is congruent if what follows is, for each value of `b` that they may
have. -/
theorem congruent_registers_bind (congruence : Registers.Congruence alike)
    {rest : Registers → Exec α}
    (hrest : ∀ {r : Registers} {b}, alike r { r with b } →
      Action.Simulates (Core.Paired alike relation) (rest r) (rest { r with b })) :
    Congruent alike relation (registers >>= rest) := by
  rintro _ _ ⟨h, related⟩
  obtain ⟨b, rfl⟩ := congruence.others h
  exact hrest h _ _ ⟨h, related⟩

/-- A change of the registers that keeps them alike is congruent. -/
theorem congruent_alter {change : Registers → Registers} (h : Registers.Preserves alike change) :
    Congruent alike relation (alter change) := by
  rintro _ _ ⟨same, related⟩
  exact .ok () ⟨h same, related⟩

/-- A change that does not look at `b` and keeps `b` and the mode. -/
theorem congruent_alter_beside (congruence : Registers.Congruence alike)
    {change : Registers → Registers}
    (plain : ∀ r b, change { r with b } = { change r with b } ∧
      (change r).emulation = r.emulation ∧ (change r).b = r.b) :
    Congruent alike relation (alter change) := by
  apply congruent_alter
  intro r s h
  obtain ⟨b, rfl⟩ := congruence.others h
  obtain ⟨commutes, mode, kept⟩ := plain r b
  rw [commutes]
  exact congruence.beside h _ mode kept

/-- A value needs neither registers nor bus. -/
theorem congruent_pure (value : α) : Congruent alike relation (pure value : Exec α) :=
  Action.simulates_pure value

/-- A question that does not ask for `b`, and has one answer for related buses. -/
theorem congruent_ask (congruence : Registers.Congruence alike)
    {question : Registers → Bus → Except Fault α}
    (same : ∀ r b {bus other}, relation bus other → question r bus = question { r with b } other) :
    Congruent alike relation (ask question) := by
  apply Action.simulates_look
  rintro _ _ ⟨h, related⟩
  obtain ⟨b, rfl⟩ := congruence.others h
  exact same _ b related

/-- An action that buses simulate is congruent on the core, since it does not see the registers.
-/
theorem congruent_onBus {action : EStateM Fault Bus α}
    (h : Action.Simulates relation action action) : Congruent alike relation (onBus action) := by
  rintro _ _ ⟨same, related⟩
  exact (h _ _ related).place fun related => ⟨same, related⟩

/-- Doing something on a condition is congruent if doing it is. -/
theorem congruent_onlyIf {condition : Bool} {action : Exec Unit}
    (h : Congruent alike relation action) :
    Congruent alike relation (onlyIf condition action) := by
  cases condition
  · exact congruent_pure ()
  · exact h

variable (congruence : Registers.Congruence alike) (h : Bus.Bisimulation relation)

include congruence h

/-- Pushing a byte is congruent. -/
theorem congruent_push8 (value : UInt8) : Congruent alike relation (push8 value) := by
  apply congruent_registers_bind congruence
  intro r b _
  apply Action.Simulates.bind (congruent_onBus (h.write8 _ _))
  intro _
  exact congruent_alter_beside congruence fun _ _ => ⟨rfl, rfl, rfl⟩

/-- Pushing a word is congruent. -/
theorem congruent_push16 (value : UInt16) : Congruent alike relation (push16 value) :=
  Action.Simulates.bind (congruent_push8 congruence h _) fun _ => congruent_push8 congruence h _

/-- Pulling a byte is congruent. -/
theorem congruent_pull8 : Congruent alike relation pull8 := by
  apply Action.Simulates.bind
  · exact congruent_alter_beside congruence fun _ _ => ⟨rfl, rfl, rfl⟩
  intro _
  apply congruent_ask congruence
  intro r b bus other related
  exact h.read8 related _

/-- Pulling a word is congruent. -/
theorem congruent_pull16 : Congruent alike relation pull16 := by
  apply Action.Simulates.bind (congruent_pull8 congruence h)
  intro low
  apply Action.Simulates.bind (congruent_pull8 congruence h)
  intro high
  exact congruent_pure _

/-- Pushing at a width is congruent. -/
theorem congruent_push (width : Width) (value : UInt16) :
    Congruent alike relation (push width value) := by
  cases width with
  | byte => exact congruent_push8 congruence h _
  | word => exact congruent_push16 congruence h _

/-- Pulling at a width is congruent. -/
theorem congruent_pull (width : Width) : Congruent alike relation (pull width) := by
  cases width with
  | byte => exact Action.Simulates.bind (congruent_pull8 congruence h) fun _ => congruent_pure _
  | word => exact congruent_pull16 congruence h

end Exec

/-! ## Effects -/

namespace Effect

open Exec Registers

/-- What an effect does of its own keeps registers alike, and what it reads off them for itself is
the same. -/
def Congruent (alike : Registers → Registers → Prop) : Effect → Prop
  | .registers change => Preserves alike change
  | .operand change => ∀ value, Preserves alike (change · value)
  | .read width change | .pull width change =>
    AgreeOn alike width ∧ ∀ value, Preserves alike (change · value)
  | .write width value => AgreeOn alike width ∧ AgreeOn alike value
  | .replace result =>
    Preserves alike (replaceAccumulator result) ∧
      ∀ old, AgreeOn alike (fun r => (result r old).1) ∧ Preserves alike fun r => (result r old).2
  | .jump condition go => AgreeOn alike condition ∧ ∀ address, Preserves alike (go · address)
  | .push width value => AgreeOn alike width ∧ ∀ operand, AgreeOn alike (value · operand)
  | .returnFromInterrupt => ∀ value, Preserves alike (·.setStatusByte value)
  | .move step => ∀ destination, Preserves alike (afterMove step destination)
  | .pushIndirect | .call | .callLong | .returnNear | .returnLong | .interrupt .. => True

/-- Whatever an effect does of its own, it does the same to the same registers. -/
theorem congruent_eq (effect : Effect) : effect.Congruent Eq := by
  have preserves (change : Registers → Registers) : Preserves Eq change := fun _ _ same =>
    congrArg change same
  have agree {α : Type} (value : Registers → α) : AgreeOn Eq value := fun _ _ same =>
    congrArg value same.symm
  cases effect with
  | registers change => exact preserves _
  | operand change => exact fun _ => preserves _
  | read width change | pull width change => exact ⟨agree _, fun _ => preserves _⟩
  | write width value => exact ⟨agree _, agree _⟩
  | replace result => exact ⟨preserves _, fun _ => ⟨agree _, preserves _⟩⟩
  | jump condition go => exact ⟨agree _, fun _ => preserves _⟩
  | push width value => exact ⟨agree _, fun _ => agree _⟩
  | returnFromInterrupt => exact fun _ => preserves _
  | move step => exact fun _ => preserves _
  | pushIndirect | call | callLong | returnNear | returnLong | interrupt _ _ _ => trivial

variable (congruence : Registers.Congruence alike) (h : Bus.Bisimulation relation)

include congruence h

/-- Finding an effective address is congruent. -/
theorem congruent_address (mode : Mode) (operand : UInt32) :
    Exec.Congruent alike relation (ask (effectiveAddress mode operand)) := by
  apply congruent_ask congruence
  intro r b bus other related
  rw [h.effectiveAddress related]
  cases mode <;> rfl

/-- Reading at a given address is congruent. -/
theorem congruent_readAt (width : Width) (address : UInt32) :
    Exec.Congruent alike relation (ask fun _ bus => bus.readAt width address) := by
  apply congruent_ask congruence
  intro r b bus other related
  exact h.readAt related width address

/-- Reading an operand is congruent. -/
theorem congruent_readOperand (width : Width) (mode : Mode) (operand : UInt32) :
    Exec.Congruent alike relation (readOperand width mode operand) := by
  have htarget : Exec.Congruent alike relation (ask (target mode operand)) := by
    apply congruent_ask congruence
    intro r b bus other related
    rw [h.target related]
    cases mode <;> rfl
  apply Action.Simulates.bind htarget
  intro found
  cases found with
  | address address => exact congruent_readAt congruence h width address
  | value value => exact congruent_pure _

/-- Changing a value in memory is congruent if the new value agrees and the registers stay alike.
-/
theorem congruent_replaceMemory {result : Registers → UInt16 → UInt16 × Registers}
    (own : ∀ old, AgreeOn alike (fun r => (result r old).1) ∧
      Preserves alike fun r => (result r old).2) (mode : Mode) (operand : UInt32) :
    Exec.Congruent alike relation (replaceMemory result mode operand) := by
  apply Action.Simulates.bind (congruent_address congruence h mode operand)
  intro address
  apply congruent_registers_bind congruence
  intro r b same
  apply Action.Simulates.bind (congruent_readAt congruence h r.memoryWidth address)
  intro old
  have value : (result { r with b } old).1 = (result r old).1 := (own old).1 same
  have changed : Action.Simulates (Core.Paired alike relation)
      (alter fun _ => (result r old).2) (alter fun _ => (result { r with b } old).2) := by
    rintro _ _ ⟨_, related⟩
    exact .ok () ⟨(own old).2 same, related⟩
  apply Action.Simulates.bind changed
  intro _
  rw [value]
  exact congruent_onBus (h.writeAt _ _ _)

/-- Entering an interrupt is congruent. -/
theorem congruent_performInterrupt (breakFlag : Bool) (emulationVector nativeVector : UInt16) :
    Exec.Congruent alike relation
      (performInterrupt breakFlag emulationVector nativeVector) := by
  apply congruent_registers_bind congruence
  intro r b _
  apply Action.Simulates.bind (congruent_onlyIf (congruent_push8 congruence h r.pb))
  intro _
  apply Action.Simulates.bind (congruent_push16 congruence h r.pc)
  intro _
  apply Action.Simulates.bind
  · exact congruent_onlyIf (congruent_alter_beside congruence fun _ _ => ⟨rfl, rfl, rfl⟩)
  intro _
  apply congruent_registers_bind congruence
  intro r b _
  apply Action.Simulates.bind (congruent_push8 congruence h r.statusByte)
  intro _
  apply Action.Simulates.bind
  · exact congruent_alter_beside congruence fun _ _ => ⟨rfl, rfl, rfl⟩
  intro _
  refine Action.Simulates.bind (congruent_ask congruence ?_) fun pc =>
    congruent_alter_beside congruence fun _ _ => ⟨rfl, rfl, rfl⟩
  intro r b bus other related
  exact h.read16 related _

/-- Returning from an interrupt is congruent if restoring the status keeps the registers alike. -/
theorem congruent_performReturnFromInterrupt
    (own : ∀ value, Preserves alike (·.setStatusByte value)) :
    Exec.Congruent alike relation performReturnFromInterrupt := by
  apply Action.Simulates.bind (congruent_pull8 congruence h)
  intro status
  apply Action.Simulates.bind (congruent_alter (own status))
  intro _
  apply Action.Simulates.bind (congruent_pull16 congruence h)
  intro pc
  apply Action.Simulates.bind
  · exact congruent_alter_beside congruence fun _ _ => ⟨rfl, rfl, rfl⟩
  intro _
  apply congruent_registers_bind congruence
  intro r b _
  apply congruent_onlyIf
  apply Action.Simulates.bind (congruent_pull8 congruence h)
  intro pb
  exact congruent_alter_beside congruence fun _ _ => ⟨rfl, rfl, rfl⟩

/-- Moving a byte is congruent if the registers stay alike afterwards. -/
theorem congruent_performMove {step : UInt16 → UInt16}
    (own : ∀ destination, Preserves alike (afterMove step destination))
    (source destination : UInt8) :
    Exec.Congruent alike relation (performMove step source destination) := by
  apply congruent_registers_bind congruence
  intro r b _
  have hread : Exec.Congruent alike relation
      (ask fun r bus => bus.read8 (Address.ofBank source r.xIndex)) := by
    apply congruent_ask congruence
    intro r b bus other related
    exact h.read8 related _
  apply Action.Simulates.bind hread
  intro byte
  apply Action.Simulates.bind (congruent_onBus (h.write8 _ _))
  intro _
  exact congruent_alter (own destination)

/-- An effect takes cores in a pair to the same end if what it does of its own is congruent, one
case for each kind. -/
theorem congruent_perform {effect : Effect} (own : effect.Congruent alike) (mode : Mode)
    (operands : Operands) : Exec.Congruent alike relation (effect.perform mode operands) := by
  cases effect with
  | registers change => exact congruent_alter own
  | operand change => exact congruent_alter (own _)
  | read width change =>
    apply congruent_registers_bind congruence
    intro r b same
    rw [own.1 same]
    exact Action.Simulates.bind (congruent_readOperand congruence h _ _ _) fun value =>
      congruent_alter (own.2 value)
  | write width value =>
    apply Action.Simulates.bind (congruent_address congruence h mode _)
    intro address
    apply congruent_registers_bind congruence
    intro r b same
    rw [own.1 same, own.2 same]
    exact congruent_onBus (h.writeAt _ _ _)
  | replace result =>
    by_cases inPlace : mode = .accumulator
    · simp only [perform, if_pos inPlace]
      exact congruent_alter own.1
    · simp only [perform, if_neg inPlace]
      exact congruent_replaceMemory congruence h own.2 mode _
  | jump condition go =>
    apply congruent_registers_bind congruence
    intro r b same
    rw [own.1 same]
    apply congruent_onlyIf
    exact Action.Simulates.bind (congruent_address congruence h mode _) fun address =>
      congruent_alter (own.2 address)
  | push width value =>
    apply congruent_registers_bind congruence
    intro r b same
    have pushed : value { r with b } (Address.offset operands.first) =
      value r (Address.offset operands.first) := own.2 _ same
    rw [own.1 same, pushed]
    exact congruent_push congruence h _ _
  | pushIndirect =>
    refine Action.Simulates.bind (congruent_ask congruence ?_) fun value =>
      congruent_push16 congruence h value
    intro r b bus other related
    exact h.read16 related _
  | pull width change =>
    apply congruent_registers_bind congruence
    intro r b same
    rw [own.1 same]
    exact Action.Simulates.bind (congruent_pull congruence h _) fun value =>
      congruent_alter (own.2 value)
  | call =>
    apply Action.Simulates.bind (congruent_address congruence h mode _)
    intro address
    apply congruent_registers_bind congruence
    intro r b _
    apply Action.Simulates.bind (congruent_push16 congruence h (r.pc - 1))
    intro _
    exact congruent_alter_beside congruence fun _ _ => ⟨rfl, rfl, rfl⟩
  | callLong =>
    apply congruent_registers_bind congruence
    intro r b _
    apply Action.Simulates.bind (congruent_push8 congruence h r.pb)
    intro _
    apply Action.Simulates.bind (congruent_push16 congruence h (r.pc - 1))
    intro _
    exact congruent_alter_beside congruence fun _ _ => ⟨rfl, rfl, rfl⟩
  | returnNear =>
    apply Action.Simulates.bind (congruent_pull16 congruence h)
    intro pc
    exact congruent_alter_beside congruence fun _ _ => ⟨rfl, rfl, rfl⟩
  | returnLong =>
    apply Action.Simulates.bind (congruent_pull16 congruence h)
    intro pc
    apply Action.Simulates.bind
    · exact congruent_alter_beside congruence fun _ _ => ⟨rfl, rfl, rfl⟩
    intro _
    apply Action.Simulates.bind (congruent_pull8 congruence h)
    intro pb
    exact congruent_alter_beside congruence fun _ _ => ⟨rfl, rfl, rfl⟩
  | returnFromInterrupt => exact congruent_performReturnFromInterrupt congruence h own
  | interrupt breakFlag emulationVector nativeVector =>
    exact congruent_performInterrupt congruence h breakFlag emulationVector nativeVector
  | move step => exact congruent_performMove congruence h own _ _

end Effect

/-- An instruction is congruent if the effect of its operation is. -/
theorem Instruction.congruent_execute (congruence : Registers.Congruence alike)
    (h : Bus.Bisimulation relation) {instruction : Instruction}
    (own : ∀ effect, instruction.opcode.effect? instruction.mode = some effect →
      effect.Congruent alike) (operands : Operands) :
    Exec.Congruent alike relation (instruction.execute operands) := by
  unfold execute
  cases found : instruction.opcode.effect? instruction.mode with
  | some effect => exact Effect.congruent_perform congruence h (own effect found) _ operands
  | none =>
    rintro _ _ ⟨same, related⟩
    exact .error _ ⟨same, related⟩

end

end W65C816
