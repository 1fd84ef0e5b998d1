import W65C816.Execution.Run
import W65C816.Proofs.Execution.Simulation
import W65C816.Proofs.Memory.Faults

/-!
# Instructions fail for want of memory

With the standard table an instruction fails for want of memory or not at all. What a mode has to
offer and what an effect asks for is compared once, over the whole table:
`suits_standardEncodings`. With that, every address that an instruction comes to is one, whatever
the registers hold, so each access is served, and the walk through the effects,
`Effect.supplied_perform`, puts them together. `Machine.step_standard` says it of a step: the
faults of memory are its only faults, and a flat view of the address space with three bytes behind
it has none of them.
-/

set_option autoImplicit false

namespace W65C816

open Addressing

/-! ## Addresses -/

/-- A word is an address of the address space. -/
theorem Address.toNat_word_lt (word : UInt16) : word.toUInt32.toNat < space := by
  have bound := word.toNat_lt
  rw [UInt16.toNat_toUInt32, space]
  omega

/-- A wrapped address is in the address space. -/
theorem Address.wrap_lt (address : UInt32) : (wrap address).toNat < space := by
  rw [toNat_wrap]
  exact Nat.mod_lt _ (by decide)

/-- Whether the mode leads to an address. -/
def Addressing.Mode.hasAddress : Mode → Bool
  | .implied | .accumulator | .immediate | .blockMove => false
  | _ => true

/-- Whatever the registers hold, and whatever a pointer may hold, what comes of a mode that leads to
an address is one. -/
theorem Bus.serves_effectiveAddress (bus : Bus) {mode : Mode} (h : mode.hasAddress = true)
    (operand : UInt32) (r : Registers) :
    bus.Serves (fun address => address.toNat < Address.space)
      (effectiveAddress mode operand r bus) := by
  have word (position : UInt16) : bus.Serves (fun _ => True) (bus.read16 position.toUInt32) :=
    bus.serves_read16 (Nat.le_of_lt (Address.toNat_word_lt position))
  have long (position : UInt16) : bus.Serves (fun pointer => pointer.toNat < Address.space)
      (bus.read24 position.toUInt32) :=
    bus.serves_read24 (Nat.le_of_lt (Address.toNat_word_lt position))
  cases mode
  case implied | accumulator | immediate | blockMove => cases h
  case direct | directIndexedX | directIndexedY | stackRelative =>
    exact .ok (Address.toNat_word_lt _)
  case absolute | programCounterRelative | programCounterRelativeLong =>
    exact .ok (Address.ofBank_lt _ _)
  case absoluteIndexedX | absoluteIndexedY | absoluteLong | absoluteLongIndexedX =>
    exact .ok (Address.wrap_lt _)
  case directIndirect | directIndexedIndirect | absoluteIndirect =>
    exact (word _).bind fun _ _ => serves_pure (Address.ofBank_lt _ _)
  case directIndirectIndexed | stackRelativeIndirectIndexed =>
    exact (word _).bind fun _ _ => serves_pure (Address.wrap_lt _)
  case directIndirectIndexedLong =>
    exact (long _).bind fun _ _ => serves_pure (Address.wrap_lt _)
  case directIndirectLong | absoluteIndirectLong => exact long _
  case absoluteIndexedIndirect =>
    have target := bus.serves_read16
      (Nat.le_of_lt (Address.ofBank_lt r.pb (Address.offset operand + r.xIndex)))
    exact target.bind fun _ _ => serves_pure (Address.ofBank_lt _ _)

/-! ## Actions on the core -/

namespace Exec

variable {α β : Type} {good : α → Prop} {fine : β → Prop}

/-- The action fails for want of memory alone, and yields a value of the kind `good` otherwise. -/
abbrev Supplied (good : α → Prop) (action : Exec α) : Prop :=
  Action.Supplied Fault.OfMemory (fun core : Core => core.bus.Spacious) good action

/-- A change of the registers does not fail. -/
theorem supplied_alter (change : Registers → Registers) :
    Supplied (fun _ => True) (alter change) :=
  fun _ => .ok trivial id

/-- Reading the registers does not fail, so all depends on what follows. -/
theorem supplied_registers_bind {rest : Registers → Exec α}
    (hrest : ∀ r, Supplied good (rest r)) : Supplied good (registers >>= rest) :=
  fun core => hrest core.registers core

/-- A question that the bus serves fails for want of memory alone. -/
theorem supplied_ask {question : Registers → Bus → Except Fault α}
    (h : ∀ r bus, Bus.Serves good bus (question r bus)) : Supplied good (ask question) := by
  intro core
  have served := h core.registers core.bus
  simp only [ask, Action.look]
  generalize question core.registers core.bus = answer at served
  cases served with
  | ok suits => exact .ok suits id
  | error h cramped => exact .error h cramped

/-- Reading a word in bank zero fails for want of memory alone. -/
theorem supplied_read16 (position : Registers → UInt16) :
    Supplied (fun _ => True) (ask fun r bus => bus.read16 (position r).toUInt32) :=
  supplied_ask fun r bus => bus.serves_read16 (Nat.le_of_lt (Address.toNat_word_lt (position r)))

/-- What fails for want of memory alone on the bus does so on the core. -/
theorem supplied_onBus {action : EStateM Fault Bus α} (h : Bus.Supplied action) :
    Supplied (fun _ => True) (onBus action) := by
  rintro ⟨r, bus⟩
  have supplied := h bus
  simp only [onBus]
  generalize action bus = outcome at supplied
  cases supplied with
  | ok suits stays => exact .ok suits stays
  | error h cramped => exact .error h cramped

/-- A condition brings no other failures. -/
theorem supplied_onlyIf {condition : Bool} {action : Exec Unit}
    (h : Supplied (fun _ => True) action) : Supplied (fun _ => True) (onlyIf condition action) := by
  cases condition
  · exact Action.supplied_pure trivial
  · exact h

/-- The stack lies in bank zero. -/
theorem supplied_push8 (value : UInt8) : Supplied (fun _ => True) (push8 value) := by
  refine supplied_registers_bind fun r => ?_
  have bound := Address.toNat_word_lt (r.wrapStack r.sp)
  refine (supplied_onBus (Bus.supplied_write8 (by omega) value)).bind fun _ _ => ?_
  exact supplied_alter _

/-- Pushing a word fails for want of memory alone. -/
theorem supplied_push16 (value : UInt16) : Supplied (fun _ => True) (push16 value) :=
  (supplied_push8 _).bind fun _ _ => supplied_push8 _

/-- Pulling a byte fails for want of memory alone. -/
theorem supplied_pull8 : Supplied (fun _ => True) pull8 := by
  refine (supplied_alter _).bind fun _ _ => supplied_ask fun r bus => ?_
  have bound := Address.toNat_word_lt r.sp
  exact bus.serves_read8 (by omega)

/-- Pulling a word fails for want of memory alone. -/
theorem supplied_pull16 : Supplied (fun _ => True) pull16 := by
  refine supplied_pull8.bind fun low _ => supplied_pull8.bind fun high _ => ?_
  exact Action.supplied_pure trivial

/-- Pushing at either width fails for want of memory alone. -/
theorem supplied_push (width : Width) (value : UInt16) :
    Supplied (fun _ => True) (push width value) := by
  cases width with
  | byte => exact supplied_push8 _
  | word => exact supplied_push16 _

/-- Pulling at either width fails for want of memory alone. -/
theorem supplied_pull (width : Width) : Supplied (fun _ => True) (pull width) := by
  cases width with
  | byte => exact supplied_pull8.bind fun _ _ => Action.supplied_pure trivial
  | word => exact supplied_pull16

end Exec

/-! ## Effects -/

namespace Effect

open Exec

/-- Whether a mode has what an effect asks it for. -/
def suits (mode : Mode) : Effect → Bool
  | .read .. => mode == .immediate || mode.hasAddress
  | .write .. | .jump .. | .call => mode.hasAddress
  | .replace _ => mode == .accumulator || mode.hasAddress
  | _ => true

variable {mode : Mode}

/-- A mode that leads to an address fails for want of memory alone, and the address is one of the
address space. -/
theorem supplied_address (h : mode.hasAddress = true) (operand : UInt32) :
    Supplied (fun address => address.toNat < Address.space)
      (ask (effectiveAddress mode operand)) :=
  supplied_ask fun r bus => bus.serves_effectiveAddress h operand r

/-- Reading at an address of the address space fails for want of memory alone. -/
theorem supplied_readAt (width : Width) {address : UInt32} (bound : address.toNat < Address.space) :
    Supplied (fun _ => True) (ask fun _ bus => bus.readAt width address) :=
  supplied_ask fun _ bus => bus.serves_readAt width (Nat.le_of_lt bound)

/-- A constant is at hand, and anything else has an address. -/
theorem supplied_readOperand (h : mode = .immediate ∨ mode.hasAddress = true) (width : Width)
    (operand : UInt32) : Supplied (fun _ => True) (readOperand width mode operand) := by
  have htarget : Supplied (fun found => ∀ address, found = .address address →
      address.toNat < Address.space) (ask (target mode operand)) := by
    refine supplied_ask fun r bus => ?_
    by_cases constant : mode = .immediate
    · subst constant
      exact .ok nofun
    · have addressed := h.resolve_left constant
      have hserves := bus.serves_effectiveAddress addressed operand r
      have htarget : target mode operand r bus =
          (effectiveAddress mode operand r bus >>= fun address => pure (.address address)) := by
        cases mode <;> first | rfl | exact absurd rfl constant
      rw [htarget]
      refine hserves.bind fun address bound => Bus.serves_pure ?_
      rintro _ ⟨⟩
      exact bound
  refine htarget.bind fun found bound => ?_
  cases found with
  | address address => exact supplied_readAt width (bound address rfl)
  | value value => exact Action.supplied_pure trivial

/-- A replacement reads and writes at one address, so it fails for want of memory alone. -/
theorem supplied_replaceMemory (h : mode.hasAddress = true)
    (result : Registers → UInt16 → UInt16 × Registers) (operand : UInt32) :
    Supplied (fun _ => True) (replaceMemory result mode operand) := by
  refine (supplied_address h operand).bind fun address bound => ?_
  refine supplied_registers_bind fun r => ?_
  refine (supplied_readAt r.memoryWidth bound).bind fun old _ => ?_
  refine (supplied_alter _).bind fun _ _ => ?_
  exact supplied_onBus (Bus.supplied_writeAt _ (Nat.le_of_lt bound) _)

/-- The vectors lie in bank zero. -/
theorem supplied_performInterrupt (breakFlag : Bool) (emulationVector nativeVector : UInt16) :
    Supplied (fun _ => True) (performInterrupt breakFlag emulationVector nativeVector) := by
  refine supplied_registers_bind fun r => ?_
  refine (supplied_onlyIf (supplied_push8 _)).bind fun _ _ => ?_
  refine (supplied_push16 _).bind fun _ _ => ?_
  refine (supplied_onlyIf (supplied_alter _)).bind fun _ _ => ?_
  refine supplied_registers_bind fun r => ?_
  refine (supplied_push8 _).bind fun _ _ => ?_
  refine (supplied_alter _).bind fun _ _ => ?_
  exact (supplied_read16 fun _ => _).bind fun pc _ => supplied_alter _

/-- A return from an interrupt pulls bytes only, so it fails for want of memory alone. -/
theorem supplied_performReturnFromInterrupt :
    Supplied (fun _ => True) performReturnFromInterrupt := by
  refine supplied_pull8.bind fun status _ => ?_
  refine (supplied_alter _).bind fun _ _ => ?_
  refine supplied_pull16.bind fun pc _ => ?_
  refine (supplied_alter _).bind fun _ _ => ?_
  refine supplied_registers_bind fun r => supplied_onlyIf ?_
  exact supplied_pull8.bind fun pb _ => supplied_alter _

/-- Both addresses of a block move are in the address space, so it fails for want of memory alone.
-/
theorem supplied_performMove (step : UInt16 → UInt16) (source destination : UInt8) :
    Supplied (fun _ => True) (performMove step source destination) := by
  refine supplied_registers_bind fun r => ?_
  have here := Address.ofBank_lt destination r.yIndex
  have hread : Supplied (fun _ => True)
      (ask fun r bus => bus.read8 (Address.ofBank source r.xIndex)) := by
    refine supplied_ask fun r bus => ?_
    have there := Address.ofBank_lt source r.xIndex
    exact bus.serves_read8 (by omega)
  refine hread.bind fun byte _ => ?_
  refine (supplied_onBus (Bus.supplied_write8 (by omega) byte)).bind fun _ _ => ?_
  exact supplied_alter _

/-- An effect in a mode that suits it fails for want of memory alone, one case for each kind. -/
theorem supplied_perform {effect : Effect} (h : effect.suits mode = true) (operands : Operands) :
    Supplied (fun _ => True) (effect.perform mode operands) := by
  cases effect with
  | registers change => exact supplied_alter _
  | operand change => exact supplied_alter fun r => change r _
  | read width change =>
    have offers : mode = .immediate ∨ mode.hasAddress = true := by
      simpa only [suits, Bool.or_eq_true, beq_iff_eq] using h
    refine supplied_registers_bind fun r => ?_
    exact (supplied_readOperand offers _ _).bind fun _ _ => supplied_alter _
  | write width value =>
    refine (supplied_address h _).bind fun address bound => ?_
    refine supplied_registers_bind fun r => ?_
    exact supplied_onBus (Bus.supplied_writeAt _ (Nat.le_of_lt bound) _)
  | replace result =>
    have offers : mode = .accumulator ∨ mode.hasAddress = true := by
      simpa only [suits, Bool.or_eq_true, beq_iff_eq] using h
    by_cases inPlace : mode = .accumulator
    · simp only [perform, if_pos inPlace]
      exact supplied_alter _
    · simp only [perform, if_neg inPlace]
      exact supplied_replaceMemory (offers.resolve_left inPlace) result _
  | jump condition go =>
    refine supplied_registers_bind fun r => supplied_onlyIf ?_
    exact (supplied_address h _).bind fun _ _ => supplied_alter _
  | push width value => exact supplied_registers_bind fun r => supplied_push _ _
  | pushIndirect =>
    have hread := supplied_read16 fun r => direct r operands.first
    exact hread.bind fun value _ => supplied_push16 value
  | pull width change =>
    refine supplied_registers_bind fun r => ?_
    exact (supplied_pull _).bind fun _ _ => supplied_alter _
  | call =>
    refine (supplied_address h _).bind fun address _ => ?_
    refine supplied_registers_bind fun r => ?_
    exact (supplied_push16 _).bind fun _ _ => supplied_alter _
  | callLong =>
    refine supplied_registers_bind fun r => ?_
    refine (supplied_push8 _).bind fun _ _ => ?_
    exact (supplied_push16 _).bind fun _ _ => supplied_alter _
  | returnNear => exact supplied_pull16.bind fun pc _ => supplied_alter _
  | returnLong =>
    refine supplied_pull16.bind fun pc _ => ?_
    refine (supplied_alter _).bind fun _ _ => ?_
    exact supplied_pull8.bind fun pb _ => supplied_alter _
  | returnFromInterrupt => exact supplied_performReturnFromInterrupt
  | interrupt breakFlag emulationVector nativeVector =>
    exact supplied_performInterrupt breakFlag emulationVector nativeVector
  | move step => exact supplied_performMove step _ _

end Effect

/-! ## The standard instructions -/

/-- Each standard operation has an effect, and its mode has what the effect asks for. -/
theorem suits_standardEncodings : standardEncodings.all (fun encoding =>
    (encoding.1.effect? encoding.2).any (Effect.suits encoding.2)) = true := by
  decide +kernel

/-- Executing a standard instruction fails for want of memory alone. -/
theorem Instruction.supplied_execute_standard (code : UInt8) (operands : Operands) :
    Exec.Supplied (fun _ => True) ((DispatchTable.standard.get code).execute operands) := by
  have member : DispatchTable.standard.get code ∈ Registry.standard :=
    DispatchTable.registry_standard ▸ DispatchTable.get_mem_standard code
  obtain ⟨i, bound, same⟩ := List.mem_mapIdx.mp member
  have known := List.all_eq_true.mp suits_standardEncodings _ (List.getElem_mem bound)
  obtain ⟨effect, found, suits⟩ := (Option.any_eq_true _ _).mp known
  rw [← same, execute]
  dsimp only
  rw [found]
  exact Effect.supplied_perform suits operands

/-- Operands of a known length are read from any address on. -/
theorem Instruction.serves_decode {instruction : Instruction} {widths : Widths} {length : Nat}
    (h : instruction.operandLength widths = .ok length) (bus : Bus) {position : UInt32}
    (bound : position.toNat ≤ Address.space) :
    bus.Serves (fun _ => True) (instruction.decode bus position widths) := by
  by_cases move : instruction.mode = .blockMove
  · by_cases empty : length = 0
    · have hdecode : instruction.decode bus position widths = .ok {} := by
        unfold decode
        rw [h, move, empty]
        rfl
      rw [hdecode]
      exact .ok trivial
    · have hdecode : instruction.decode bus position widths =
          (bus.check position 2 >>= fun _ => bus.read8 position >>= fun destination =>
            bus.read8 (position + 1) >>= fun source =>
              pure { first := source.toUInt32, second := destination.toUInt32, length }) := by
        unfold decode
        rw [h, move]
        rcases length with _ | _ | _ | length <;> first | rfl | exact absurd rfl empty
      rw [hdecode]
      refine (bus.serves_check bound Nat.two_pos (by decide)).bind fun _ _ => ?_
      refine (bus.serves_read8 (Nat.le_add_right_of_le bound)).bind fun destination _ => ?_
      have next := @Bus.toNat_add_small _ bound 1 (by decide)
      exact (bus.serves_read8 next).bind fun source _ => Bus.serves_pure trivial
  · rw [decode_number move h]
    exact (bus.serves_readNumber bound length).bind fun first _ => Bus.serves_pure trivial

/-- Reading a standard instruction at an address fails for want of memory alone. -/
theorem DispatchTable.serves_decodeAt_standard (bus : Bus) {offset : UInt32}
    (bound : offset.toNat < Address.space) (widths : Widths) :
    bus.Serves (fun record => ∃ code, record.instruction = standard.get code)
      (standard.decodeAt bus offset widths) := by
  have behind : (offset + 1).toNat ≤ Address.space := by
    have one : (1 : UInt32).toNat = 1 := rfl
    rw [Address.space] at bound ⊢
    rw [UInt32.toNat_add, one]
    omega
  have hcode := @Bus.serves_read8 bus offset (by omega)
  refine hcode.bind fun code _ => ?_
  obtain ⟨length, hlength⟩ := exists_operandLength_standard code widths
  refine (Instruction.serves_decode hlength bus behind).bind fun operands _ => ?_
  exact Bus.serves_pure ⟨code, rfl⟩

/-! ## Steps -/

namespace Machine

variable {α : Type} {good : α → Prop}

/-- The memory extends over everything that can be asked for, and no hook panics. -/
def Roomy (machine : Machine) : Prop :=
  machine.bus.Spacious ∧ machine.hooks.Calm

/-- The action has no faults but those of memory, and neither has it these nor panics where there
is room. -/
abbrev Supplied (good : α → Prop) (action : MachineAction α) : Prop :=
  Action.Supplied (fun failure => ∀ fault, failure = .fault fault → fault.OfMemory) Roomy good
    action

/-- What fails for want of memory alone on the core does so on the machine, and does not panic. -/
theorem supplied_onCore {action : Exec α} (h : Exec.Supplied good action) :
    Supplied good (onCore action) := by
  rintro ⟨core, hooks, control, log, trace⟩
  have supplied := h core
  simp only [onCore]
  generalize action core = outcome at supplied
  cases supplied with
  | ok suits stays => exact .ok suits fun roomy => ⟨stays roomy.1, roomy.2⟩
  | error h cramped =>
    refine .error ?_ fun roomy => cramped roomy.1
    rintro _ ⟨⟩
    exact h

/-- Hooks have no faults, and calm ones do not panic. -/
theorem supplied_invoke (index : Nat) (sighting : Sighting) :
    Supplied (fun _ => True) (invoke index sighting) := by
  rintro ⟨core, hooks, control, log, trace⟩
  cases found : hooks.get? index with
  | none =>
    simp only [invoke, found]
    exact .ok trivial id
  | some hook =>
    by_cases panics : (hook.react (hook.calls + 1) sighting).panic = true
    · simp only [invoke, found, respond, if_pos panics]
      have none (fault : Fault) (same : Failure.panic = .fault fault) : fault.OfMemory := by
        cases same
      refine .error none ?_
      rintro ⟨-, calm⟩
      have quiet := calm index hook found (hook.calls + 1) sighting
      rw [panics] at quiet
      cases quiet
    · simp only [invoke, found, respond, if_neg panics]
      exact .ok trivial fun roomy => ⟨roomy.1, roomy.2.put index (roomy.2 index hook found)⟩

/-- Calling a hook for an instruction has no faults, and calm hooks do not panic. -/
theorem supplied_callHook (instruction : Instruction) (slot : UInt8) :
    Supplied (fun _ => True) (callHook instruction slot) := by
  have ends : Supplied (fun _ => True) (pure () : MachineAction Unit) :=
    Action.supplied_pure trivial
  intro machine
  rw [callHook_eq]
  split
  · exact ends machine
  · exact Action.Supplied.bind (supplied_invoke _ _) (fun _ _ => ends) machine

/-- Executing a standard instruction has no faults but those of memory. -/
theorem supplied_execute_standard (code : UInt8) (operands : Operands) :
    Supplied (fun _ => True) (execute (DispatchTable.standard.get code) operands) := by
  unfold execute
  split
  · exact supplied_callHook _ _
  · exact supplied_onCore (Instruction.supplied_execute_standard code operands)

/-- Fetching from the standard table has no faults but those of memory, and yields a standard
instruction. -/
theorem supplied_fetch_standard :
    Supplied (fun record => ∃ code, record.instruction = DispatchTable.standard.get code)
      (fetch .standard) := by
  refine supplied_onCore (Exec.supplied_ask fun r bus => ?_)
  exact DispatchTable.serves_decodeAt_standard bus (Address.ofBank_lt r.pb r.pc) r.widths

/-- A step with the standard table, from reading the instruction to counting it. -/
theorem supplied_step_standard : Supplied (fun _ => True) (step .standard) := by
  refine supplied_fetch_standard.bind fun record standard => ?_
  obtain ⟨code, standard⟩ := standard
  have noted : Supplied (fun _ => True) (note record) := fun machine => .ok trivial id
  refine noted.bind fun _ _ => ?_
  refine (supplied_onCore (Exec.supplied_alter _)).bind fun _ _ => ?_
  rw [standard]
  refine (supplied_execute_standard code _).bind fun _ _ => ?_
  refine (supplied_onCore (Exec.supplied_alter _)).bind fun _ _ => ?_
  exact Action.supplied_pure trivial

/-- The standard instruction set is closed and total. From every state of the registers, on every
memory behind either kind of bus, a step with hooks that do not panic fails because a position is
out of range or because an address is out of reach, and for no other reason; and it does not fail on
a flat view of the address space with three bytes behind it. -/
theorem step_standard (machine : Machine) (calm : machine.hooks.Calm) :
    (∀ failure next, step .standard machine = .error failure next →
        (∃ position length, failure = .fault (.outOfRange position length)) ∨
          ∃ address, failure = .fault (.accessViolation address)) ∧
      ∀ view, machine.bus = .flat view → 0x1000003 ≤ view.length →
        ∃ record next, step .standard machine = .ok record next := by
  have supplied := supplied_step_standard machine
  have quiet := (keepsCalm_step .standard machine calm).2
  generalize step .standard machine = outcome at supplied quiet
  cases supplied with
  | @ok record next _ _ =>
    constructor
    · intro failure last failed
      cases failed
    · intro view flat room
      exact ⟨record, next, rfl⟩
  | @error failure next h cramped =>
    constructor
    · rintro _ _ ⟨⟩
      cases failure with
      | panic => exact absurd rfl (quiet next)
      | fault fault =>
        cases h fault rfl with
        | outOfRange position length => exact .inl ⟨position, length, rfl⟩
        | accessViolation address => exact .inr ⟨address, rfl⟩
    · intro view flat room
      have extent : Address.space + 3 ≤ view.length := by
        rw [Address.space]
        exact room
      exact absurd ⟨⟨view, flat, extent⟩, calm⟩ cramped

/-- Where a banked bus has nothing but ROM, no instruction can be read. On a memory of the least
size that has room for everything, the instruction at the last address has its operands behind the
address space, and succeeds. -/
theorem step_standard_last_address :
    let lost : Machine := { core := ⟨{ pc := 0x8000 }, .banked (.whole .least)⟩ }
    lost.hooks.Calm ∧
      (∃ failure next, step .standard lost = .error failure next ∧
        ((∃ position length, failure = .fault (.outOfRange position length)) ∨
          ∃ address, failure = .fault (.accessViolation address))) ∧
      ∃ memory, Memory.create 0x1000003 = .ok memory ∧
        let machine : Machine :=
          { core := ⟨{ pb := 0xFF, pc := 0xFFFF, emulation := false }, .flat (.whole memory)⟩ }
        machine.hooks.Calm ∧ ∃ record next, step .standard machine = .ok record next := by
  intro lost
  have failed : step .standard lost = .error (.fault (.accessViolation 0x8000)) _ :=
    Action.eq_error_of_failsWith (by decide +kernel)
  have reason := (step_standard lost HookTable.calm_default).1 _ _ failed
  obtain ⟨memory, created, size⟩ := @Memory.exists_create 0x1000003 (by decide)
  refine ⟨HookTable.calm_default, ⟨_, _, failed, reason⟩, memory, created,
    HookTable.calm_default, ?_⟩
  exact (step_standard _ HookTable.calm_default).2 (.whole memory) rfl (Nat.le_of_eq size.symm)

end Machine

end W65C816
