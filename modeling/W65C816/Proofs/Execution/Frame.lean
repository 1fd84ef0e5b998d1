import W65C816.Execution.Operation

/-!
# What an instruction may do to the registers

A relation between the registers before and the registers after says what an action may do to them.
`Action.Within` holds of an action whose every outcome, success or failure, respects a relation, and
sequencing keeps it when the relation is transitive. A `Registers.Frame` is a relation that lets the
stack pointer and the program counter change freely. Whatever is in an effect beyond that is its
own: `Effect.Within` asks for it kind by kind, and `Effect.within_perform` puts an instruction
together again, with every exit that a memory fault opens halfway. A frame that the effects of all
operations are within is a `Registers.Law`.
-/

set_option autoImplicit false

namespace W65C816

open Addressing

/-! ## Actions within a relation -/

namespace Action

variable {ε σ α β : Type} {relation : σ → σ → Prop}

/-- Whether the action succeeds or fails, the state that it leaves behind is related to the state
that it began in. -/
def Within (relation : σ → σ → Prop) (action : EStateM ε σ α) : Prop :=
  ∀ state, relation state (stateAfter (action state))

/-- Actions in a row stay within a transitive relation if each of them does. -/
theorem Within.bind (trans : ∀ {a b c}, relation a b → relation b c → relation a c)
    {first : EStateM ε σ α} {rest : α → EStateM ε σ β} (hfirst : Within relation first)
    (hrest : ∀ value, Within relation (rest value)) : Within relation (first >>= rest) := by
  intro state
  have h := hfirst state
  rw [bind_apply]
  cases found : first state with
  | ok value next =>
    rw [found] at h
    exact trans h (hrest value next)
  | error failure next =>
    rw [found] at h
    exact h

/-- Actions in a row succeed when each of them does. -/
theorem exists_of_bind_eq_ok {first : EStateM ε σ α} {rest : α → EStateM ε σ β} {state last : σ}
    {value : β} (h : (first >>= rest) state = .ok value last) :
    ∃ found next, first state = .ok found next ∧ rest found next = .ok value last := by
  rw [bind_apply] at h
  cases outcome : first state with
  | ok found next =>
    rw [outcome] at h
    exact ⟨found, next, rfl, h⟩
  | error failure next =>
    rw [outcome] at h
    cases h

/-- A question leaves the state alone. -/
theorem within_look (refl : ∀ a, relation a a) (question : σ → Except ε α) :
    Within relation (look question) := by
  intro state
  rw [stateAfter_look]
  exact refl state

end Action

/-! ## Frames of the registers -/

/-- A relation between the registers before and after that holds of every move of the stack pointer
and does not see where the program is. -/
structure Registers.Frame (relation : Registers → Registers → Prop) : Prop where
  refl : ∀ r, relation r r
  trans : ∀ {r s t}, relation r s → relation s t → relation r t
  stack : ∀ (r : Registers) (sp : UInt16), relation r { r with sp := r.wrapStack sp }
  program : ∀ (r : Registers) (pb : UInt8) (pc : UInt16), relation r { r with pb, pc }

namespace Registers.Frame

variable {relation : Registers → Registers → Prop}

/-- A frame leaves the program counter open. -/
theorem counter (frame : Frame relation) (r : Registers) (pc : UInt16) :
    relation r { r with pc } :=
  frame.program r r.pb pc

/-- A frame leaves the program bank open. -/
theorem bank (frame : Frame relation) (r : Registers) (pb : UInt8) :
    relation r { r with pb } :=
  frame.program r pb r.pc

/-- A frame leaves open where a jump leads. -/
theorem jumpTo (frame : Frame relation) (r : Registers) (address : UInt32) :
    relation r (r.jumpTo address) :=
  frame.program r (Address.bank address) (Address.offset address)

end Registers.Frame

/-! ## Actions on the core -/

namespace Exec

variable {relation : Registers → Registers → Prop} {α β : Type}

/-- The registers that the action leaves behind are related to those that it began with. -/
abbrev Within (relation : Registers → Registers → Prop) (action : Exec α) : Prop :=
  Action.Within (fun core next : Core => relation core.registers next.registers) action

/-- Actions in a row stay within a frame if each of them does. -/
theorem Within.bind (frame : Registers.Frame relation) {first : Exec α} {rest : α → Exec β}
    (hfirst : Within relation first) (hrest : ∀ value, Within relation (rest value)) :
    Within relation (first >>= rest) := by
  refine Action.Within.bind ?_ hfirst hrest
  intro core next last h h'
  exact frame.trans h h'

/-- Looking at the registers and going on with what was seen. -/
theorem within_registers_bind {rest : Registers → Exec α}
    (hrest : ∀ r, Within relation (rest r)) : Within relation (registers >>= rest) :=
  fun core => hrest core.registers core

/-- A change of the registers is within what holds of the change. -/
theorem within_alter {change : Registers → Registers} (h : ∀ r, relation r (change r)) :
    Within relation (alter change) :=
  fun core => h core.registers

/-- A question leaves the registers alone. -/
theorem within_ask (frame : Registers.Frame relation)
    (question : Registers → Bus → Except Fault α) : Within relation (ask question) :=
  Action.within_look (fun core => frame.refl core.registers) _

/-- An action on the bus leaves the registers alone. -/
theorem within_onBus (frame : Registers.Frame relation) (action : EStateM Fault Bus α) :
    Within relation (onBus action) := by
  intro core
  rw [onBus, Action.stateAfter_place]
  exact frame.refl core.registers

/-- Doing nothing leaves the registers alone. -/
theorem within_pure (frame : Registers.Frame relation) (value : α) :
    Within relation (pure value : Exec α) :=
  fun core => frame.refl core.registers

/-- An action that depends on a condition is within what the action is within. -/
theorem within_onlyIf (frame : Registers.Frame relation) {condition : Bool} {action : Exec Unit}
    (h : Within relation action) : Within relation (onlyIf condition action) := by
  cases condition
  · exact within_pure frame ()
  · exact h

/-- A push moves the stack pointer if its byte can be written. -/
theorem within_push8 (frame : Registers.Frame relation) (value : UInt8) :
    Within relation (push8 value) := by
  refine within_registers_bind fun r => Within.bind frame (within_onBus frame _) fun _ => ?_
  exact within_alter fun r => frame.stack r (r.sp - 1)

/-- A push of a word moves the stack pointer once for each byte that can be written. -/
theorem within_push16 (frame : Registers.Frame relation) (value : UInt16) :
    Within relation (push16 value) :=
  Within.bind frame (within_push8 frame _) fun _ => within_push8 frame _

/-- A pull moves the stack pointer even if its byte cannot be read. -/
theorem within_pull8 (frame : Registers.Frame relation) : Within relation pull8 := by
  refine Within.bind frame (within_alter fun r => ?_) fun _ => within_ask frame _
  exact frame.stack r (r.sp + 1)

/-- A pull of a word moves the stack pointer for each byte that it comes to. -/
theorem within_pull16 (frame : Registers.Frame relation) : Within relation pull16 := by
  refine Within.bind frame (within_pull8 frame) fun _ => ?_
  exact Within.bind frame (within_pull8 frame) fun _ => within_pure frame _

/-- A push of either width moves the stack pointer alone. -/
theorem within_push (frame : Registers.Frame relation) (width : Width) (value : UInt16) :
    Within relation (push width value) := by
  cases width
  · exact within_push8 frame _
  · exact within_push16 frame _

/-- A pull of either width moves the stack pointer alone. -/
theorem within_pull (frame : Registers.Frame relation) (width : Width) :
    Within relation (pull width) := by
  cases width
  · exact Within.bind frame (within_pull8 frame) fun _ => within_pure frame _
  · exact within_pull16 frame

end Exec

/-! ## Effects -/

namespace Effect

variable {relation : Registers → Registers → Prop}

/-- What an effect does to the registers by itself, apart from moving the stack pointer and the
program, is within the relation. -/
def Within (relation : Registers → Registers → Prop) : Effect → Prop
  | .registers change => ∀ r, relation r (change r)
  | .operand change => ∀ r value, relation r (change r value)
  | .read _ change | .pull _ change => ∀ r value, relation r (change r value)
  | .replace result =>
    (∀ r, relation r (replaceAccumulator result r)) ∧ ∀ r old, relation r (result r old).2
  | .jump _ go => ∀ r address, relation r (go r address)
  | .returnFromInterrupt => ∀ r value, relation r (r.setStatusByte value)
  | .interrupt breakFlag _ _ =>
    (∀ r : Registers, relation r { r with breakFlag }) ∧
      ∀ r : Registers, relation r { r with
        status := { r.status with interruptDisable := true, decimal := false } }
  | .move step => ∀ r destination, relation r (afterMove step destination r)
  | .write .. | .push .. | .pushIndirect | .call | .callLong | .returnNear | .returnLong => True

/-- An effect that is within two relations is within both at once. -/
theorem Within.and {first second : Registers → Registers → Prop} {effect : Effect}
    (h : effect.Within first) (h' : effect.Within second) :
    effect.Within fun r s => first r s ∧ second r s := by
  cases effect with
  | registers change => exact fun r => ⟨h r, h' r⟩
  | operand change => exact fun r value => ⟨h r value, h' r value⟩
  | read width change => exact fun r value => ⟨h r value, h' r value⟩
  | pull width change => exact fun r value => ⟨h r value, h' r value⟩
  | replace result => exact ⟨fun r => ⟨h.1 r, h'.1 r⟩, fun r old => ⟨h.2 r old, h'.2 r old⟩⟩
  | jump condition go => exact fun r address => ⟨h r address, h' r address⟩
  | returnFromInterrupt => exact fun r value => ⟨h r value, h' r value⟩
  | interrupt breakFlag _ _ => exact ⟨fun r => ⟨h.1 r, h'.1 r⟩, fun r => ⟨h.2 r, h'.2 r⟩⟩
  | move step => exact fun r destination => ⟨h r destination, h' r destination⟩
  | _ => trivial

/-- Reading an operand changes nothing. -/
theorem within_readOperand (frame : Registers.Frame relation) (width : Width) (mode : Mode)
    (operand : UInt32) : Exec.Within relation (readOperand width mode operand) := by
  refine Exec.Within.bind frame (Exec.within_ask frame _) fun found => ?_
  cases found
  · exact Exec.within_ask frame _
  · exact Exec.within_pure frame _

/-- Replacing a memory operand: nothing happens unless the operand can be read; after that the
registers are changed, and then the result is written. -/
theorem replaceMemory_apply (result : Registers → UInt16 → UInt16 × Registers) (mode : Mode)
    (operand : UInt32) (core : Core) :
    replaceMemory result mode operand core =
      match effectiveAddress mode operand core.registers core.bus with
      | .error fault => .error fault core
      | .ok address =>
        match core.bus.readAt core.registers.memoryWidth address with
        | .error fault => .error fault core
        | .ok old =>
          Action.place (Core.mk (result core.registers old).2)
            (Bus.writeAt core.registers.memoryWidth address (result core.registers old).1
              core.bus) := by
  simp only [replaceMemory, Action.bind_apply, Exec.ask, Action.look]
  cases effectiveAddress mode operand core.registers core.bus with
  | error fault => rfl
  | ok address =>
    simp only [Exec.registers]
    cases core.bus.readAt core.registers.memoryWidth address <;> rfl

/-- Replacing a value in memory stays within a frame if the registers do. -/
theorem within_replaceMemory (frame : Registers.Frame relation)
    {result : Registers → UInt16 → UInt16 × Registers}
    (h : ∀ r old, relation r (result r old).2) (mode : Mode) (operand : UInt32) :
    Exec.Within relation (replaceMemory result mode operand) := by
  intro core
  rw [replaceMemory_apply]
  split
  · exact frame.refl core.registers
  · split
    · exact frame.refl core.registers
    · next old _ =>
      rw [Action.stateAfter_place]
      exact h core.registers old

/-- An interrupt: each push may fail, and so may reading the vector, when the status has changed
already. -/
theorem within_performInterrupt (frame : Registers.Frame relation) {breakFlag : Bool}
    (hbreak : ∀ r : Registers, relation r { r with breakFlag })
    (hstatus : ∀ r : Registers, relation r { r with
      status := { r.status with interruptDisable := true, decimal := false } })
    (emulationVector nativeVector : UInt16) :
    Exec.Within relation (performInterrupt breakFlag emulationVector nativeVector) := by
  refine Exec.within_registers_bind fun r => ?_
  refine Exec.Within.bind frame (Exec.within_onlyIf frame (Exec.within_push8 frame _)) fun _ => ?_
  refine Exec.Within.bind frame (Exec.within_push16 frame _) fun _ => ?_
  refine Exec.Within.bind frame (Exec.within_onlyIf frame (Exec.within_alter hbreak)) fun _ => ?_
  refine Exec.within_registers_bind fun r => ?_
  refine Exec.Within.bind frame (Exec.within_push8 frame _) fun _ => ?_
  refine Exec.Within.bind frame (Exec.within_alter fun r => ?_) fun _ => ?_
  · exact frame.trans (hstatus r) (frame.bank _ 0)
  · refine Exec.Within.bind frame (Exec.within_ask frame _) fun pc => ?_
    exact Exec.within_alter fun r => frame.counter r pc

/-- A return from an interrupt: the status is restored before the rest is pulled. -/
theorem within_performReturnFromInterrupt (frame : Registers.Frame relation)
    (h : ∀ (r : Registers) (value : UInt8), relation r (r.setStatusByte value)) :
    Exec.Within relation performReturnFromInterrupt := by
  refine Exec.Within.bind frame (Exec.within_pull8 frame) fun status => ?_
  refine Exec.Within.bind frame (Exec.within_alter fun r => h r status) fun _ => ?_
  refine Exec.Within.bind frame (Exec.within_pull16 frame) fun pc => ?_
  refine Exec.Within.bind frame (Exec.within_alter fun r => frame.counter r pc) fun _ => ?_
  refine Exec.within_registers_bind fun r => Exec.within_onlyIf frame ?_
  refine Exec.Within.bind frame (Exec.within_pull8 frame) fun pb => ?_
  exact Exec.within_alter fun r => frame.bank r pb

/-- A block move changes the registers after its byte was written. -/
theorem within_performMove (frame : Registers.Frame relation) {step : UInt16 → UInt16}
    (h : ∀ r destination, relation r (afterMove step destination r))
    (source destination : UInt8) :
    Exec.Within relation (performMove step source destination) := by
  refine Exec.within_registers_bind fun r => ?_
  refine Exec.Within.bind frame (Exec.within_ask frame _) fun byte => ?_
  refine Exec.Within.bind frame (Exec.within_onBus frame _) fun _ => ?_
  exact Exec.within_alter fun r => h r destination

/-- Carrying out an effect does to the registers what the effect does by itself and what a frame
allows, wherever it comes to an end. -/
theorem within_perform (frame : Registers.Frame relation) {effect : Effect}
    (h : effect.Within relation) (mode : Mode) (operands : Operands) :
    Exec.Within relation (effect.perform mode operands) := by
  cases effect with
  | registers change => exact Exec.within_alter h
  | operand change => exact Exec.within_alter fun r => h r _
  | read width change =>
    refine Exec.within_registers_bind fun r => ?_
    refine Exec.Within.bind frame (within_readOperand frame _ _ _) fun value => ?_
    exact Exec.within_alter fun r => h r value
  | write width value =>
    refine Exec.Within.bind frame (Exec.within_ask frame _) fun address => ?_
    exact Exec.within_registers_bind fun r => Exec.within_onBus frame _
  | replace result =>
    by_cases inPlace : mode = .accumulator
    · simp only [perform, if_pos inPlace]
      exact Exec.within_alter h.1
    · simp only [perform, if_neg inPlace]
      exact within_replaceMemory frame h.2 mode _
  | jump condition go =>
    refine Exec.within_registers_bind fun r => Exec.within_onlyIf frame ?_
    refine Exec.Within.bind frame (Exec.within_ask frame _) fun address => ?_
    exact Exec.within_alter fun r => h r address
  | push width value => exact Exec.within_registers_bind fun r => Exec.within_push frame _ _
  | pushIndirect =>
    exact Exec.Within.bind frame (Exec.within_ask frame _) fun value =>
      Exec.within_push16 frame value
  | pull width change =>
    refine Exec.within_registers_bind fun r => ?_
    refine Exec.Within.bind frame (Exec.within_pull frame _) fun value => ?_
    exact Exec.within_alter fun r => h r value
  | call =>
    refine Exec.Within.bind frame (Exec.within_ask frame _) fun address => ?_
    refine Exec.within_registers_bind fun r => ?_
    refine Exec.Within.bind frame (Exec.within_push16 frame _) fun _ => ?_
    exact Exec.within_alter fun r => frame.counter r _
  | callLong =>
    refine Exec.within_registers_bind fun r => ?_
    refine Exec.Within.bind frame (Exec.within_push8 frame _) fun _ => ?_
    refine Exec.Within.bind frame (Exec.within_push16 frame _) fun _ => ?_
    exact Exec.within_alter fun r => frame.jumpTo r _
  | returnNear =>
    refine Exec.Within.bind frame (Exec.within_pull16 frame) fun pc => ?_
    exact Exec.within_alter fun r => frame.counter r _
  | returnLong =>
    refine Exec.Within.bind frame (Exec.within_pull16 frame) fun pc => ?_
    refine Exec.Within.bind frame (Exec.within_alter fun r => frame.counter r _) fun _ => ?_
    refine Exec.Within.bind frame (Exec.within_pull8 frame) fun pb => ?_
    exact Exec.within_alter fun r => frame.bank r pb
  | returnFromInterrupt => exact within_performReturnFromInterrupt frame h
  | interrupt breakFlag emulationVector nativeVector =>
    exact within_performInterrupt frame h.1 h.2 emulationVector nativeVector
  | move step => exact within_performMove frame h _ _

end Effect

/-- A relation that every instruction obeys: a frame within which the effect of each operation is,
in each mode. -/
structure Registers.Law (relation : Registers → Registers → Prop) : Prop
    extends Registers.Frame relation where
  effects : ∀ (mode : Mode) (opcode : Opcode) {effect : Effect},
    opcode.effect? mode = some effect → effect.Within relation

/-- A law that does not see whether the processor is halted and how many instructions it has carried
out, so that it holds of whole runs. -/
structure Registers.RunLaw (relation : Registers → Registers → Prop) : Prop
    extends Registers.Law relation where
  control : ∀ (r : Registers) (waiting stopped : Bool) (instructions : UInt64),
    relation r { r with waiting, stopped, instructions }

/-- Executing an instruction is within a frame that its effect is within, whatever its operands are
and wherever it comes to an end. A stand-in fails and changes nothing. -/
theorem Instruction.within_execute_of_effect {relation : Registers → Registers → Prop}
    (frame : Registers.Frame relation) {instruction : Instruction}
    (h : ∀ effect, instruction.opcode.effect? instruction.mode = some effect →
      effect.Within relation) (operands : Operands) :
    Exec.Within relation (instruction.execute operands) := by
  unfold Instruction.execute
  cases found : instruction.opcode.effect? instruction.mode with
  | some effect => exact Effect.within_perform frame (h effect found) _ operands
  | none => exact fun core => frame.refl core.registers

end W65C816
