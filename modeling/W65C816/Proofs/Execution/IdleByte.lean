import W65C816.Proofs.Execution.Congruence
import W65C816.Proofs.Execution.Lockstep

/-!
# The byte that lies idle in native mode

In native mode `a` is the whole accumulator and `b` lies idle. Two processors that differ in an idle
`b` alone come to the same end with every instruction and differ in it alone again: no instruction
of native mode reads it, and the only way into emulation mode overwrites it. `Registers.SameUpToB`
is the congruence that says so. It has a parameter `met` that holds once the two have been in
emulation mode. From then on they are the same, so one walk does for both phases.

Hooks are shown all the registers, so the machines stay together as long as no hook acts on an idle
`b`. Machines that do go in tandem, and a run that comes through emulation mode anywhere leaves them
with the same registers, by induction on the turns before.
-/

set_option autoImplicit false

namespace W65C816

open Addressing

/-! ## Registers -/

namespace Registers

/-- The registers are the same but for `b`, which is the same in emulation mode, and in native mode
too once they have met. -/
structure SameUpToB (met : Prop) (r s : Registers) : Prop where
  others : s = { r with b := s.b }
  b : met ∨ r.emulation = true → s.b = r.b

namespace SameUpToB

variable {met : Prop} {r s : Registers}

/-- Registers are the same as themselves up to `b`. -/
theorem refl (met : Prop) (r : Registers) : SameUpToB met r r :=
  ⟨rfl, fun _ => rfl⟩

/-- Registers that agree up to `b` are equal where `b` counts. -/
theorem eq (h : SameUpToB met r s) (same : met ∨ r.emulation = true) : s = r := by
  rw [h.others, h.b same]

/-- Emulation mode is where they meet. -/
theorem meet (h : SameUpToB met r s) (emulation : r.emulation = true) (met' : Prop) :
    SameUpToB met' r s :=
  ⟨h.others, fun _ => h.b (.inr emulation)⟩

/-- In native mode `b` may be anything. -/
theorem of_native (others : s = { r with b := s.b }) (native : r.emulation = false) :
    SameUpToB False r s :=
  ⟨others, fun either => by simp [native] at either⟩

/-- A change that keeps them together in native mode always does. -/
theorem preserves_of_native {change : Registers → Registers}
    (native : ∀ (r : Registers) b, r.emulation = false →
      SameUpToB False (change r) (change { r with b })) :
    Preserves (SameUpToB met) change := by
  intro r s h
  by_cases same : met ∨ r.emulation = true
  · rw [h.eq same]
    exact refl met _
  · rw [not_or, Bool.not_eq_true] at same
    have changed := native r s.b same.2
    rw [← h.others] at changed
    exact ⟨changed.others, fun either => changed.b (.inr (either.resolve_left same.1))⟩

/-- They agree on what is not read off `b` in native mode. -/
theorem agreeOn_of_native {α : Type} {value : Registers → α}
    (native : ∀ (r : Registers) b, r.emulation = false → value { r with b } = value r) :
    AgreeOn (SameUpToB met) value := by
  intro r s h
  by_cases same : met ∨ r.emulation = true
  · rw [h.eq same]
  · rw [not_or, Bool.not_eq_true] at same
    rw [h.others]
    exact native r s.b same.2

/-- They agree on what does not look at `b`. -/
theorem agreeOn {α : Type} {value : Registers → α}
    (blind : ∀ (r : Registers) b, value { r with b } = value r) :
    AgreeOn (SameUpToB met) value :=
  agreeOn_of_native fun r b _ => blind r b

/-- A change that does not look at `b` and keeps the mode keeps them together. -/
theorem preserves {change : Registers → Registers}
    (blind : ∀ (r : Registers) b, change { r with b } = { change r with b })
    (mode : ∀ r, (change r).emulation = r.emulation) : Preserves (SameUpToB met) change :=
  preserves_of_native fun r b native => .of_native (by rw [blind r b]) ((mode r).trans native)

end SameUpToB

/-- Agreeing up to `b` leaves nothing else open. -/
theorem congruence_sameUpToB (met : Prop) : Congruence (SameUpToB met) where
  others := fun h => ⟨_, h.others⟩
  beside := by
    intro r b h t mode kept
    refine ⟨rfl, fun either => ?_⟩
    rw [mode] at either
    exact (h.b either).trans kept.symm

/-! ## What instructions do -/

variable {met : Prop} {r : Registers} {b : UInt8}

/-- In native mode `b` is no part of the accumulator. -/
theorem c_of_native (native : r.emulation = false) : r.c = r.a := by
  simp [c, native]

/-- In native mode the accumulator is set without `b`. -/
theorem setC_of_native (native : r.emulation = false) (value : UInt16) :
    r.setC value = { r with a := value } := by
  simp [setC, native]

/-- A status is restored without a look at `b`. -/
theorem sameUpToB_setStatusByte (value : UInt8) (native : r.emulation = false) :
    SameUpToB False (r.setStatusByte value) ({ r with b : Registers }.setStatusByte value) := by
  have restored {r : Registers} (native : r.emulation = false) :
      r.setStatusByte value =
        { r with status := Flags.ofByte value : Registers }.applyIndexWidth := by
    simp [setStatusByte, native]
  rw [restored native, restored (r := { r with b }) native]
  exact .of_native rfl native

/-- Emulation mode takes its `b` from the accumulator. -/
theorem enterEmulation_of_native (native : r.emulation = false) :
    { r with b : Registers }.enterEmulation = r.enterEmulation := by
  simp [enterEmulation, native]

/-- On the way out of native mode `b` is set anew. -/
theorem sameUpToB_exchangeCarryEmulation (native : r.emulation = false) :
    SameUpToB False r.exchangeCarryEmulation
      { r with b : Registers }.exchangeCarryEmulation := by
  have exchanged {r : Registers} (native : r.emulation = false) :
      r.exchangeCarryEmulation =
        if r.status.carry then r.enterEmulation else r.setCarry false := by
    cases carry : r.status.carry <;> simp [exchangeCarryEmulation, native, carry]
  rw [exchanged native, exchanged (r := { r with b }) native]
  split
  · rw [enterEmulation_of_native (b := b) native]
    exact .refl _ _
  · exact .of_native rfl native

/-- In native mode the two bytes are exchanged without `b`. -/
theorem sameUpToB_exchangeBytes (native : r.emulation = false) :
    SameUpToB False r.exchangeBytes { r with b : Registers }.exchangeBytes := by
  have exchanged {r : Registers} (native : r.emulation = false) :
      r.exchangeBytes = { r with a := Word.join (Word.low r.a) (Word.high r.a) : Registers }.setNZ
        .byte (Word.join (Word.low r.a) (Word.high r.a)) := by
    simp only [exchangeBytes, c_of_native native, setC_of_native native]
  rw [exchanged native, exchanged (r := { r with b }) native]
  exact .of_native rfl native

/-- In native mode a byte is moved without `b`. -/
theorem sameUpToB_afterMove (step : UInt16 → UInt16) (destination : UInt8)
    (native : r.emulation = false) :
    SameUpToB False (Effect.afterMove step destination r)
      (Effect.afterMove step destination { r with b }) := by
  have moved {r : Registers} (native : r.emulation = false) :
      Effect.afterMove step destination r =
        { ({ r with db := destination : Registers }.setX (step r.x)).setY (step r.y) with
          a := r.a - 1, pc := if r.a - 1 = 0xFFFF then r.pc else r.pc - 3 } := by
    have native' : (({ r with db := destination : Registers }.setX (step r.x)).setY
      (step r.y)).emulation = false := native
    simp only [Effect.afterMove, c_of_native native, setC_of_native native']
    split <;> rfl
  rw [moved native, moved (r := { r with b }) native]
  exact .of_native rfl native

open SameUpToB in
/-- No operation in any mode looks at an idle `b`. -/
theorem congruent_sameUpToB_effect? (met : Prop) (mode : Mode) {opcode : Opcode} {effect : Effect}
    (h : opcode.effect? mode = some effect) : effect.Congruent (SameUpToB met) := by
  cases opcode <;> simp only [Opcode.effect?, Option.some.injEq, reduceCtorEq] at h <;> subst h
  case adc | sbc | and | eor | ora | cmp | cpx | cpy | lda | ldx | ldy =>
    exact ⟨agreeOn fun _ _ => rfl, fun _ => preserves (fun _ _ => rfl) fun _ => rfl⟩
  case pla | plx | ply | plb | pld =>
    exact ⟨agreeOn fun _ _ => rfl, fun _ => preserves (fun _ _ => rfl) fun _ => rfl⟩
  case bit =>
    refine ⟨agreeOn fun _ _ => rfl, fun _ => ?_⟩
    split <;> exact preserves (fun _ _ => rfl) fun _ => rfl
  case asl | lsr | rol | ror | inc | dec | tsb | trb =>
    exact ⟨preserves (fun _ _ => rfl) fun _ => rfl,
      fun _ => ⟨agreeOn fun _ _ => rfl, preserves (fun _ _ => rfl) fun _ => rfl⟩⟩
  case sta | stx | sty | stz => exact ⟨agreeOn fun _ _ => rfl, agreeOn fun _ _ => rfl⟩
  case bcc | bcs | bne | beq | bpl | bmi | bvc | bvs | bra | brl | jmp | jml =>
    exact ⟨agreeOn fun _ _ => rfl, fun _ => preserves (fun _ _ => rfl) fun _ => rfl⟩
  case pha | phx | phy | phb | phd | phk | php | pea | per =>
    exact ⟨agreeOn fun _ _ => rfl, fun _ => agreeOn fun _ _ => rfl⟩
  case pei | jsr | jsl | rts | rtl | brk | cop => trivial
  case plp =>
    exact ⟨agreeOn fun _ _ => rfl, fun value =>
      preserves_of_native fun _ _ => sameUpToB_setStatusByte _⟩
  case rti => exact fun value =>
    preserves_of_native fun _ _ => sameUpToB_setStatusByte value
  case rep | sep => exact fun _ => preserves (fun _ _ => rfl) fun _ => rfl
  case xce => exact preserves_of_native fun _ _ => sameUpToB_exchangeCarryEmulation
  case xba => exact preserves_of_native fun _ _ => sameUpToB_exchangeBytes
  case mvn | mvp => exact fun destination =>
    preserves_of_native fun _ _ => sameUpToB_afterMove _ destination
  -- The transfers of all sixteen bits find them in `a` and leave them there.
  case tax | tay | tcs | tcd =>
    refine preserves_of_native fun r b native => ?_
    rw [c_of_native native, c_of_native (r := { r with b }) native]
    exact .of_native rfl native
  case tsc | tdc =>
    refine preserves_of_native fun r b native => ?_
    rw [setC_of_native native, setC_of_native (r := { r with b }) native]
    exact .of_native rfl native
  all_goals exact preserves (fun _ _ => rfl) fun _ => rfl

end Registers

/-! ## Machines -/

/-- What is logged of a call of a hook, without the `b` that it was shown. -/
def HookCall.withoutB (call : HookCall) : HookCall :=
  { call with sighting :=
    { call.sighting with registers := { call.sighting.registers with b := 0 } } }

/-- No hook acts on the `b` that it is shown in native mode. -/
def HookTable.IgnoresB (hooks : HookTable) : Prop :=
  ∀ index hook, hooks.get? index = some hook → ∀ number (sighting : Sighting) b,
    sighting.registers.emulation = false →
      hook.react number { sighting with registers := { sighting.registers with b } } =
        hook.react number sighting

/-- Where there are no hooks, none acts on `b`. -/
theorem HookTable.ignoresB_default : ({} : HookTable).IgnoresB := by
  intro index hook found
  rw [get?_default] at found
  cases found

namespace Machine

/-- The machines are the same up to `b` as their registers show it and as their logs do. Their
traces may be anything. -/
structure SameUpToB (met : Prop) (machine other : Machine) : Prop where
  registers : Registers.SameUpToB met machine.registers other.registers
  bus : machine.bus = other.bus
  hooks : machine.hooks = other.hooks
  ignoring : machine.hooks.IgnoresB
  control : machine.control = other.control
  calls : machine.log.toList.map HookCall.withoutB = other.log.toList.map HookCall.withoutB

variable {met : Prop} {α : Type} {machine other : Machine}

/-- Emulation mode is where they meet. -/
theorem SameUpToB.meet (h : SameUpToB met machine other)
    (emulation : machine.registers.emulation = true) (met' : Prop) :
    SameUpToB met' machine other :=
  { h with registers := h.registers.meet emulation met' }

/-- What is congruent up to `b` on the core is simulated up to `b` on the machine. -/
theorem simulates_onCore_upToB {action : Exec α}
    (h : Exec.Congruent (Registers.SameUpToB met) Eq action) :
    Action.Simulates (SameUpToB met) (onCore action) (onCore action) := by
  rintro ⟨⟨r, bus⟩, hooks, control, log, trace⟩ ⟨⟨s, bus'⟩, hooks', control', log', trace'⟩
    ⟨same, hbus, hhooks, ignoring, hcontrol, calls⟩
  cases hbus
  cases hhooks
  cases hcontrol
  have hmatch := h ⟨r, bus⟩ ⟨s, bus⟩ ⟨same, rfl⟩
  simp only [onCore]
  generalize action ⟨r, bus⟩ = outcome at hmatch
  generalize action ⟨s, bus⟩ = outcome' at hmatch
  cases hmatch with
  | ok value related =>
    obtain ⟨same, rfl⟩ := related
    exact .ok value ⟨same, rfl, rfl, ignoring, rfl, calls⟩
  | error fault related =>
    obtain ⟨same, rfl⟩ := related
    exact .error _ ⟨same, rfl, rfl, ignoring, rfl, calls⟩

/-- A hook reacts to what it is shown, and not to an idle `b`. -/
theorem simulates_invoke_upToB (index : Nat) (slot : UInt8) (instruction : Instruction)
    {r s : Registers} (shown : Registers.SameUpToB met r s) :
    Action.Simulates (SameUpToB met) (invoke index ⟨slot, instruction, r⟩)
      (invoke index ⟨slot, instruction, s⟩) := by
  rintro ⟨⟨t, bus⟩, hooks, control, log, trace⟩ ⟨⟨u, bus'⟩, hooks', control', log', trace'⟩
    ⟨same, hbus, hhooks, ignoring, hcontrol, calls⟩
  cases hbus
  cases hhooks
  cases hcontrol
  have calls : log.toList.map HookCall.withoutB = log'.toList.map HookCall.withoutB := calls
  cases found : hooks.get? index with
  | none =>
    simp only [invoke, found]
    exact .ok false ⟨same, rfl, rfl, ignoring, rfl, calls⟩
  | some hook =>
    have agree : Registers.AgreeOn (Registers.SameUpToB met) fun r =>
        hook.react (hook.calls + 1) ⟨slot, instruction, r⟩ :=
      Registers.SameUpToB.agreeOn_of_native fun r b native =>
        ignoring index hook found _ ⟨slot, instruction, r⟩ b native
    have reaction : hook.react (hook.calls + 1) ⟨slot, instruction, s⟩ =
        hook.react (hook.calls + 1) ⟨slot, instruction, r⟩ := agree shown
    have counted : (hooks.put index (some { hook with calls := hook.calls + 1 })).IgnoresB :=
      HookTable.forall_put ignoring index (ignoring index hook found)
    have seen : { s with b := 0 } = { r with b := 0 } := by rw [shown.others]
    simp only [invoke, found, respond, reaction]
    by_cases panics : (hook.react (hook.calls + 1) ⟨slot, instruction, r⟩).panic = true
    · rw [if_pos panics, if_pos panics]
      refine .error Failure.panic ⟨same, rfl, rfl, counted, rfl,
        HookCall.map_noted calls ?_ hook.logged⟩
      simp only [HookCall.withoutB, seen]
    · rw [if_neg panics, if_neg panics]
      refine .ok true ⟨same, rfl, rfl, counted, rfl, HookCall.map_noted calls ?_ hook.logged⟩
      simp only [HookCall.withoutB, seen]

/-- Hooks that ignore `b` are called alike. -/
theorem simulates_callHook_upToB (instruction : Instruction) (slot : UInt8) :
    Action.Simulates (SameUpToB met) (callHook instruction slot) (callHook instruction slot) := by
  intro machine other same
  rw [callHook_eq, callHook_eq]
  split
  · exact .ok () same
  · exact (simulates_invoke_upToB _ slot instruction same.registers).bind
      (fun _ => Action.simulates_pure ()) machine other same

/-- Instructions are executed alike up to `b` if the hooks ignore it. -/
theorem simulates_execute_upToB (instruction : Instruction) (operands : Operands) :
    Action.Simulates (SameUpToB met) (execute instruction operands)
      (execute instruction operands) := by
  unfold execute
  split
  · exact simulates_callHook_upToB _ _
  · exact simulates_onCore_upToB <|
      Instruction.congruent_execute (Registers.congruence_sameUpToB met) Bus.bisimulation_eq
        (fun _ found => Registers.congruent_sameUpToB_effect? met _ found) operands

/-- What is noted of an instruction goes to the trace and nowhere else. -/
theorem simulates_note_upToB (record : Record) :
    Action.Simulates (SameUpToB met) (note record) (note record) :=
  fun _ _ same =>
    .ok () ⟨same.registers, same.bus, same.hooks, same.ignoring, same.control, same.calls⟩

/-- A step keeps machines together that are the same up to `b`. -/
theorem simulates_step_upToB (table : DispatchTable) :
    Action.Simulates (SameUpToB met) (step table) (step table) := by
  have congruence := Registers.congruence_sameUpToB met
  refine simulates_step_of_parts ?_ simulates_note_upToB (fun count => ?_)
    simulates_execute_upToB ?_
  · apply simulates_onCore_upToB
    apply Exec.congruent_ask congruence
    rintro r b bus _ rfl
    rfl
  · exact simulates_onCore_upToB <|
      Exec.congruent_alter_beside congruence fun _ _ => ⟨rfl, rfl, rfl⟩
  · exact simulates_onCore_upToB <|
      Exec.congruent_alter_beside congruence fun _ _ => ⟨rfl, rfl, rfl⟩

/-- Machines that are the same up to `b` go in tandem. -/
theorem tandem_sameUpToB (met : Prop) : Tandem (SameUpToB met) where
  halt := fun same => by
    have agree : Registers.AgreeOn (Registers.SameUpToB met) Registers.halt? :=
      Registers.SameUpToB.agreeOn fun _ _ => rfl
    exact (agree same.registers).symm
  control := fun same => same.control
  startAt := fun same start => by
    have kept : Registers.Preserves (Registers.SameUpToB met) (·.startAt start) :=
      Registers.SameUpToB.preserves (fun _ _ => by cases start <;> rfl)
        fun _ => by cases start <;> rfl
    exact { same with registers := kept same.registers }
  resume := fun same => by
    have kept : Registers.Preserves (Registers.SameUpToB met) Registers.resume :=
      Registers.SameUpToB.preserves (fun _ _ => rfl) fun _ => rfl
    exact { same with registers := kept same.registers }
  steer := fun same change => { same with control := congrArg change same.control }
  step := simulates_step_upToB

/-- If a run is in emulation mode after some of its turns, the machines have met there and are the
same from then on. By induction on those turns. -/
theorem turns_meet {table : DispatchTable} {requests : Nat → Bool} {first count limit : Nat}
    (same : SameUpToB met machine other) (bound : count ≤ limit)
    (emulation :
      (Action.stateAfter (turns table requests first count machine)).registers.emulation = true)
    (met' : Prop) :
    Action.Matches (SameUpToB met') (turns table requests first limit machine)
      (turns table requests first limit other) := by
  induction count generalizing first limit machine other with
  | zero =>
    exact (tandem_sameUpToB met').turns table requests first limit _ _ (same.meet emulation met')
  | succ count ih =>
    obtain ⟨limit, rfl⟩ := Nat.exists_eq_add_of_le' (Nat.le_trans (Nat.le_add_left 1 count) bound)
    have polled : SameUpToB met
        (if requests first then { machine with control := machine.control.cancel } else machine)
        (if requests first then { other with control := other.control.cancel } else other) := by
      split
      · exact (tandem_sameUpToB met).steer same Control.cancel
      · exact same
    have hturn := (tandem_sameUpToB met).turn table _ _ polled
    rw [turns_succ] at emulation
    rw [turns_succ, turns_succ]
    generalize turn table _ = outcome at hturn emulation
    generalize turn table _ = outcome' at hturn
    cases hturn with
    | ok reason next =>
      cases reason with
      | none => exact ih next (Nat.le_of_succ_le_succ bound) emulation
      | some reason => exact .ok _ (next.meet emulation met')
    | error failure next => exact .error _ (next.meet emulation met')

end Machine

end W65C816
