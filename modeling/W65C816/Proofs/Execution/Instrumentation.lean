import W65C816.Proofs.Execution.Steps

/-!
# Which hooks are called, and with what

`Record.summons` says by itself, without the machine's own way of calling hooks, which hook an
instruction calls and what the hook is shown: `WDM` with a number from 1 to 254 calls the hook in
the slot before that number, if there is one, and nothing else calls a hook. `Machine.Called` says
of two machines that exactly the listed calls, in their order, lie between them: one entry in the
log for each call of a hook that is logged, and one more in the count of the hook that was called,
whether it is logged or not. `Machine.answered_step` is the account of one step, and lists of calls
are put one behind another by `Machine.Called.trans`.
-/

set_option autoImplicit false

namespace W65C816

/-- A call of a hook that an instruction asks for. -/
structure Summons where
  /-- The index of the slot. -/
  index : Nat
  /-- The hook that lies in the slot before the call. -/
  hook : Hook
  sighting : Sighting

/-- What the log tells of a call, apart from how the interpreter answered the hook. -/
def HookCall.entry (call : HookCall) : Option String × Nat × Sighting :=
  (call.tag, call.number, call.sighting)

namespace Summons

/-- What the log is to tell of the call. -/
def entry (summons : Summons) : Option String × Nat × Sighting :=
  (summons.hook.tag, summons.hook.calls + 1, summons.sighting)

/-- What the hook does when it is called. -/
def reaction (summons : Summons) : Reaction :=
  summons.hook.react (summons.hook.calls + 1) summons.sighting

end Summons

/-- The call of a hook that an instruction asks for, if it asks for one. -/
def Record.summons (record : Record) (hooks : HookTable) (registers : Registers) :
    Option Summons :=
  let slot := Address.low record.operands.first
  if record.instruction.opcode = .wdm ∧ 1 ≤ slot ∧ slot ≤ 254 then
    (hooks.get? (slot.toNat - 1)).map fun hook =>
      { index := slot.toNat - 1, hook
        sighting := { slot, instruction := record.instruction, registers } }
  else none

namespace Machine

/-- The call of a hook that the next instruction asks for, if it asks for one. The hook is to see
the registers with the program counter behind the instruction and nothing else changed. -/
def summons (table : DispatchTable) (machine : Machine) : Option Summons :=
  match table.decodeAt machine.bus machine.registers.fullPc machine.registers.widths with
  | .ok record => record.summons machine.hooks (machine.registers.advance record.length)
  | .error _ => none

/-! ## Calls between two machines -/

/-- From one machine to the other these calls of hooks were made, in this order, and no others. -/
structure Called (calls : List Summons) (machine next : Machine) : Prop where
  log : next.log.toList.map HookCall.entry = machine.log.toList.map HookCall.entry ++
    (calls.filter fun call => call.hook.logged).map Summons.entry
  hooks : ∀ index, next.hooks.get? index = (machine.hooks.get? index).map fun hook =>
    { hook with calls := hook.calls + calls.countP fun call => call.index = index }

/-- No hook was called if neither the log nor the hooks have changed. -/
theorem Called.of_eq {machine next : Machine} (log : next.log = machine.log)
    (hooks : next.hooks = machine.hooks) : Called [] machine next where
  log := by rw [log, List.filter_nil, List.map_nil, List.append_nil]
  hooks := by
    intro index
    rw [hooks]
    cases machine.hooks.get? index <;> rfl

/-- Calls that follow calls. -/
theorem Called.trans {calls more : List Summons} {machine next last : Machine}
    (h : Called calls machine next) (h' : Called more next last) :
    Called (calls ++ more) machine last where
  log := by
    rw [h'.log, h.log, List.append_assoc, List.filter_append, List.map_append]
  hooks := by
    intro index
    rw [h'.hooks, h.hooks, Option.map_map, List.countP_append]
    congr 1
    funext hook
    simp only [Function.comp_apply, Nat.add_assoc]

/-- From one machine to the other a hook was called if one was summoned, and the cancellation that
it asks for is requested. -/
structure Answered (summons : Option Summons) (machine next : Machine) : Prop where
  called : Called summons.toList machine next
  cancelled : next.control.cancelled =
    (machine.control.cancelled || summons.any fun call => call.reaction.cancel)

/-- No hook has answered if neither the log, the hooks nor the control have changed. -/
theorem Answered.of_eq {machine next : Machine} (log : next.log = machine.log)
    (hooks : next.hooks = machine.hooks) (control : next.control = machine.control) :
    Answered none machine next where
  called := .of_eq log hooks
  cancelled := by rw [control, Option.any_none, Bool.or_false]

/-! ## One instruction -/

/-- There is no hook beyond the slots. -/
theorem lt_hookSlots_of_get? {hooks : HookTable} {index : Nat} {hook : Hook}
    (found : hooks.get? index = some hook) : index < hookSlots := by
  rw [HookTable.get?] at found
  split at found
  · next inside => exact inside
  · cases found

/-- The operand of a `WDM` names the slot before it. Neither the least nor the greatest number that
an operand can be names one. -/
theorem summons_of_wdm {record : Record} (wdm : record.instruction.opcode = .wdm)
    (hooks : HookTable) (registers : Registers) :
    record.summons hooks registers =
      if Address.low record.operands.first = 0 then none
      else (hooks.get? ((Address.low record.operands.first).toNat - 1)).map fun hook =>
        { index := (Address.low record.operands.first).toNat - 1, hook
          sighting := { slot := Address.low record.operands.first
                        instruction := record.instruction, registers } } := by
  unfold Record.summons
  simp only [wdm, true_and]
  generalize Address.low record.operands.first = slot
  by_cases zero : slot = 0
  · subst zero
    rfl
  · have named : 1 ≤ slot := by
      rw [UInt8.le_iff_toNat_le]
      exact Nat.pos_of_ne_zero fun same => zero (UInt8.toNat.inj same)
    rw [if_neg zero]
    by_cases small : slot ≤ 254
    · rw [if_pos ⟨named, small⟩]
    · rw [if_neg fun both => small both.2]
      cases found : hooks.get? (slot.toNat - 1) with
      | none => rfl
      | some hook =>
        have inside := lt_hookSlots_of_get? found
        rw [hookSlots] at inside
        rw [UInt8.le_iff_toNat_le] at small
        exact absurd (by simp only [UInt8.reduceToNat]; omega) small

/-- What a `WDM` does: it calls the hook that it summons. -/
theorem execute_of_wdm {record : Record} (wdm : record.instruction.opcode = .wdm)
    (machine : Machine) :
    execute record.instruction record.operands machine =
      match record.summons machine.hooks machine.registers with
      | none => .ok () machine
      | some call => (invoke call.index call.sighting >>= fun _ => pure ()) machine := by
  rw [summons_of_wdm wdm, execute, if_pos wdm]
  generalize Address.low record.operands.first = slot
  rw [callHook_eq]
  by_cases zero : slot = 0
  · rw [if_pos zero, if_pos zero]
  · rw [if_neg zero, if_neg zero]
    cases found : machine.hooks.get? (slot.toNat - 1) with
    | none =>
      obtain ⟨core, hooks, control, log, trace⟩ := machine
      simp only [Action.bind_apply, invoke, found, Option.map_none]
      rfl
    | some hook => rfl

/-- The hook that is summoned lies in its slot. -/
theorem get?_of_summons {record : Record} {hooks : HookTable} {registers : Registers}
    {call : Summons} (h : record.summons hooks registers = some call) :
    hooks.get? call.index = some call.hook := by
  unfold Record.summons at h
  dsimp only at h
  split at h
  · obtain ⟨hook, found, rfl⟩ := Option.map_eq_some_iff.mp h
    exact found
  · cases h

/-- A call of the hook in a slot is the one that was asked for, whether the hook panics or not. -/
theorem answered_invoke {call : Summons} {machine : Machine}
    (found : machine.hooks.get? call.index = some call.hook) :
    Answered (some call) machine
      (Action.stateAfter (invoke call.index call.sighting machine)) := by
  obtain ⟨core, hooks, control, log, trace⟩ := machine
  have found : hooks.get? call.index = some call.hook := found
  have hlog (entry : HookCall) (same : entry.entry = call.entry) :
      (if call.hook.logged then log.push entry else log).toList.map HookCall.entry =
        log.toList.map HookCall.entry ++
          ([call].filter fun call => call.hook.logged).map Summons.entry := by
    cases logged : call.hook.logged with
    | true => simp [logged, same]
    | false => simp [logged]
  have hhooks (index : Nat) :
      (hooks.put call.index (some { call.hook with calls := call.hook.calls + 1 })).get? index =
        (hooks.get? index).map fun hook =>
          { hook with calls := hook.calls + [call].countP fun call => call.index = index } := by
    rw [HookTable.get?_put, List.countP_singleton]
    by_cases same : index = call.index
    · subst same
      simp [lt_hookSlots_of_get? found, found]
    · have other : ¬ call.index = index := fun same' => same same'.symm
      rw [if_neg fun both => same both.1]
      simp only [other, decide_false, Bool.false_eq_true, if_false, Nat.add_zero]
      cases hooks.get? index <;> rfl
  have hcancelled : (if call.reaction.cancel then control.cancel else control).cancelled =
      (control.cancelled || call.reaction.cancel) := by
    cases call.reaction.cancel with
    | true => exact (Bool.or_true _).symm
    | false => exact (Bool.or_false _).symm
  by_cases panics : (call.hook.react (call.hook.calls + 1) call.sighting).panic = true
  · simp only [invoke, found, respond, if_pos panics]
    exact ⟨⟨hlog _ rfl, hhooks⟩, hcancelled⟩
  · simp only [invoke, found, respond, if_neg panics]
    exact ⟨⟨hlog _ rfl, hhooks⟩, hcancelled⟩

/-- Executing an instruction calls the hook that it summons, if it summons one, and no other. -/
theorem answered_execute (record : Record) (machine : Machine) :
    Answered (record.summons machine.hooks machine.registers) machine
      (Action.stateAfter (execute record.instruction record.operands machine)) := by
  by_cases wdm : record.instruction.opcode = .wdm
  · rw [execute_of_wdm wdm]
    cases summoned : record.summons machine.hooks machine.registers with
    | none => exact .of_eq rfl rfl rfl
    | some call =>
      have h := answered_invoke (get?_of_summons summoned)
      simp only [Action.bind_apply]
      split <;> next outcome =>
        rw [outcome] at h
        exact h
  · have none : record.summons machine.hooks machine.registers = none := by
      rw [Record.summons, if_neg fun both => wdm both.1]
    rw [none, execute, if_neg wdm]
    obtain ⟨core, hooks, control, log, trace⟩ := machine
    simp only [onCore]
    split <;> exact .of_eq rfl rfl rfl

/-! ## One step -/

/-- A step calls the hook that its instruction summons, if it summons one, and no other. -/
theorem answered_step (table : DispatchTable) (machine : Machine) :
    Answered (machine.summons table) machine (Action.stateAfter (step table machine)) := by
  unfold summons
  cases read : table.decodeAt machine.bus machine.registers.fullPc machine.registers.widths with
  | error fault =>
    rw [step_of_decodeAt_error read]
    exact .of_eq rfl rfl rfl
  | ok record =>
    have h := answered_execute record (machine.about record)
    rw [step_of_decodeAt read]
    generalize execute record.instruction record.operands (machine.about record) = outcome at h
    cases outcome <;> exact ⟨⟨h.called.log, h.called.hooks⟩, h.cancelled⟩

/-- A `WDM` that summons no hook is carried out, and changes nothing but the program counter and the
count of instructions. -/
theorem step_of_summons_eq_none {table : DispatchTable} {machine : Machine} {record : Record}
    (read : table.decodeAt machine.bus machine.registers.fullPc machine.registers.widths =
      .ok record) (wdm : record.instruction.opcode = .wdm) (h : machine.summons table = none) :
    step table machine = .ok record (machine.about record).counted := by
  simp only [summons, read] at h
  have here : record.summons (machine.about record).hooks (machine.about record).registers =
      none := h
  have idle := execute_of_wdm wdm (machine.about record)
  rw [here] at idle
  rw [step_of_decodeAt read, idle]

end Machine

end W65C816
