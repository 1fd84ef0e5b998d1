import W65C816.Proofs.Interpreter.Events

/-!
# Who is told that a call is stopping

Whoever asks what the interpreter is doing is told that it is stopping when a call is active and a
cancellation stands. A run forgets an earlier cancellation when it begins, so within a run that is
the truth about the run itself. A call for one instruction does not forget it.
`Machine.Proceeds.scoped_iff` compares the two on all ways of a machine: everybody who is told that
a call is stopping is told so after a cancellation was requested in that very call exactly when no
call for one instruction begins while a cancellation stands.

What hooks are told is what their log says, and `Machine.Proceeds.tells` finds it among the events.
-/

set_option autoImplicit false

namespace W65C816

/-- To stop is to run with cancellation requested. -/
theorem Control.phase_eq_stopping_iff (control : Control) :
    control.phase = .stopping ↔ control.running = true ∧ control.cancelled = true := by
  unfold phase
  cases control.running <;> cases control.cancelled <;> simp

/-- What someone is told who asks, and asks again if a cancellation is requested in between. -/
def Control.answers (control : Control) (requested : Bool) : List Phase :=
  control.phase :: if requested then [control.cancel.phase] else []

namespace Event

/-- Whoever is told that a call is stopping is told so after a cancellation was requested in that
call. -/
def Scoped (past : List Event) (event : Event) : Prop :=
  event = .seen .stopping → Standing BeginsCall .request past

/-- A call for one instruction begins only when no cancellation stands. -/
def Fresh (past : List Event) (event : Event) : Prop :=
  event = .once → ¬ Standing BeginsRun .request past

/-- What someone who asks is told. -/
def phase? : Event → Option Phase
  | .seen phase => some phase
  | .once | .run | .request | .attempt _ => none

end Event

namespace Machine

open Event

variable {table : DispatchTable} {machine next : Machine} {events past : List Event}

/-! ## One instruction -/

/-- After a step cancellation is requested if it was before, or if the hook of the step has asked
for it. -/
theorem cancelled_step (table : DispatchTable) (machine : Machine) :
    (Action.stateAfter (step table machine)).control.cancelled =
      (machine.control.cancelled || machine.asksToCancel table) :=
  (answered_step table machine).cancelled

/-- A request that stands behind an instruction stood before it or comes from a hook. -/
theorem standing_stepEvents {voids : Event → Prop}
    (attempts : ∀ machine, ¬ voids (.attempt machine)) (asks : ∀ phase, ¬ voids (.seen phase)) :
    Standing voids .request (past ++ machine.stepEvents table) ↔
      machine.asksToCancel table = true ∨ Standing voids .request past := by
  rw [stepEvents, List.append_cons, List.append_cons]
  have before : Standing voids .request
      (past ++ [.attempt machine] ++ [.seen machine.control.phase]) ↔
        Standing voids .request past := by
    simp only [standing_concat, reduceCtorEq, false_or, attempts, asks, not_false_eq_true,
      and_true]
  cases machine.asksToCancel table with
  | false =>
    rw [if_neg Bool.false_ne_true, List.append_nil, before]
    exact (or_iff_right Bool.false_ne_true).symm
  | true =>
    rw [if_pos rfl, List.append_cons, standing_concat, standing_concat]
    simp [asks]

/-- No call begins during an instruction. -/
theorem throughout_fresh_stepEvents : Throughout Fresh past (machine.stepEvents table) := by
  rintro before event after same rfl
  have member : Event.once ∈ machine.stepEvents table := by simp [same]
  rw [stepEvents] at member
  cases machine.asksToCancel table <;> simp at member

/-- A hook that has requested a cancellation is told that the call is stopping, and rightly so. -/
theorem throughout_scoped_stepEvents :
    Throughout Scoped past (machine.stepEvents table) ↔
      (machine.control.phase = .stopping → Standing BeginsCall .request past) := by
  have attempted : Standing BeginsCall .request (past ++ [.attempt machine]) ↔
      Standing BeginsCall .request past := by
    simp [standing_concat, BeginsCall]
  have hook : Throughout Scoped (past ++ [.attempt machine] ++ [.seen machine.control.phase])
      (if machine.asksToCancel table then [.request, .seen machine.control.cancel.phase]
        else []) := by
    split
    · rw [throughout_cons, throughout_singleton]
      exact ⟨nofun, fun _ => standing_concat.mpr (.inl rfl)⟩
    · exact throughout_nil
  have attempt : Scoped past (.attempt machine) := nofun
  rw [stepEvents, throughout_cons, throughout_cons, and_iff_left hook, and_iff_right attempt,
    Scoped, attempted, Event.seen.injEq]

/-- A call that goes on and is stopping behind an instruction was asked to by a hook. -/
theorem standing_of_stopping (unasked : machine.control.cancelled = false)
    (stopping : (Action.stateAfter (step table machine)).control.phase = .stopping) :
    Standing BeginsCall .request (past ++ machine.stepEvents table) := by
  have asked := ((Control.phase_eq_stopping_iff _).mp stopping).2
  rw [cancelled_step, unasked, Bool.false_or] at asked
  have quiet : ∀ phase, ¬ BeginsCall (.seen phase) := by simp [BeginsCall]
  exact (standing_stepEvents (by simp [BeginsCall]) quiet).mpr (.inl asked)

/-! ## All ways of a machine -/

/-- The machine knows of a cancellation exactly when one was requested since the last run began. -/
theorem Proceeds.cancelled_iff (h : Proceeds table events machine next)
    (stands : machine.control.cancelled = true ↔ Standing BeginsRun .request past) :
    next.control.cancelled = true ↔ Standing BeginsRun .request (past ++ events) := by
  have step_iff (machine : Machine) {past : List Event}
      (stands : machine.control.cancelled = true ↔ Standing BeginsRun .request past) :
      (Action.stateAfter (step table machine)).control.cancelled = true ↔
        Standing BeginsRun .request (past ++ machine.stepEvents table) := by
    rw [cancelled_step, Bool.or_eq_true, standing_stepEvents (fun _ => nofun) fun _ => nofun,
      stands, or_comm]
  induction h generalizing past with
  | rests machine | equips machine bus hooks | resumes machine | releases machine =>
    rw [List.append_nil]
    exact stands
  | trans h h' ih ih' =>
    rw [← List.append_assoc]
    exact ih' (ih stands)
  | asks machine => simp [standing_concat, BeginsRun, stands]
  | requests machine => simp [standing_concat, cancelled, Control.cancel]
  | @calls machine idle start =>
    rw [List.append_cons]
    refine step_iff (machine.onceFrom start) ?_
    simp [standing_concat, BeginsRun, ← stands, onceFrom]
  | begins idle start => simp [standing_concat, BeginsRun, runFrom]
  | continues running unasked succeeds => exact step_iff _ stands
  | fails running unasked failed => exact step_iff _ stands

/-- On every way of a machine, whoever is told that a call is stopping is told so after a
cancellation was requested in that call exactly when no call for one instruction begins while a
cancellation stands. That holds from every past on in which it is so now. -/
theorem Proceeds.scoped_iff (h : Proceeds table events machine next)
    (stands : machine.control.cancelled = true ↔ Standing BeginsRun .request past)
    (honest : machine.control.phase = .stopping → Standing BeginsCall .request past) :
    (Throughout Scoped past events ↔ Throughout Fresh past events) ∧
      (Throughout Fresh past events →
        next.control.phase = .stopping → Standing BeginsCall .request (past ++ events)) := by
  induction h generalizing past with
  | rests machine | equips machine bus hooks | resumes machine =>
    rw [List.append_nil]
    exact ⟨iff_of_true throughout_nil throughout_nil, fun _ => honest⟩
  | releases machine =>
    refine ⟨iff_of_true throughout_nil throughout_nil, fun _ stopping => ?_⟩
    cases ((Control.phase_eq_stopping_iff _).mp stopping).1
  | trans h h' ih ih' =>
    -- The second way begins where all is well only if the first one was fresh, so the two sides are
    -- compared under that assumption.
    have first := ih stands honest
    have rest (fresh : Throughout Fresh past _) := ih' (h.cancelled_iff stands) (first.2 fresh)
    rw [throughout_append, throughout_append, ← List.append_assoc, first.1]
    exact ⟨and_congr_right fun fresh => (rest fresh).1, fun fresh => (rest fresh.1).2 fresh.2⟩
  | asks machine =>
    rw [throughout_singleton, throughout_singleton]
    refine ⟨iff_of_true (fun same => honest ?_) nofun, fun _ stopping => ?_⟩
    · injection same
    · exact standing_concat.mpr (.inr ⟨honest stopping, nofun⟩)
  | requests machine =>
    rw [throughout_singleton, throughout_singleton]
    exact ⟨iff_of_true nofun nofun, fun _ _ => standing_concat.mpr (.inl rfl)⟩
  | @calls machine idle start =>
    -- The call forgets what was requested before it, and its machine does not.
    let first := machine.onceFrom start
    have forgotten : ¬ Standing BeginsCall .request (past ++ [.once]) := by
      simp [standing_concat, BeginsCall]
    have stopping_iff : first.control.phase = .stopping ↔ Standing BeginsRun .request past := by
      rw [Control.phase_eq_stopping_iff, ← stands]
      exact and_iff_right rfl
    refine ⟨?_, fun _ stopping => ?_⟩
    · rw [throughout_cons, throughout_cons, throughout_scoped_stepEvents, stopping_iff,
        and_iff_left throughout_fresh_stepEvents, and_iff_right nofun]
      exact ⟨fun own _ stood => forgotten (own stood), fun fresh stood => absurd stood (fresh rfl)⟩
    · cases ((Control.phase_eq_stopping_iff _).mp stopping).1
  | begins idle start =>
    rw [throughout_singleton, throughout_singleton]
    refine ⟨iff_of_true nofun nofun, fun _ stopping => ?_⟩
    cases ((Control.phase_eq_stopping_iff _).mp stopping).2
  | continues running unasked succeeds =>
    exact ⟨iff_of_true (throughout_scoped_stepEvents.mpr honest) throughout_fresh_stepEvents,
      fun _ stopping => standing_of_stopping unasked stopping⟩
  | fails running unasked failed =>
    refine ⟨iff_of_true (throughout_scoped_stepEvents.mpr honest) throughout_fresh_stepEvents, ?_⟩
    intro _ stopping
    cases ((Control.phase_eq_stopping_iff _).mp stopping).1

/-! ## What hooks are told -/

/-- What the hooks were told in the calls that are logged. -/
def told (machine : Machine) : List Phase :=
  machine.log.toList.flatMap fun call => call.phase :: call.phaseAfter.toList

/-- Between the two machines hooks were told some of the phases, in this order. -/
def Tells (phases : List Phase) (machine next : Machine) : Prop :=
  ∃ heard, heard.Sublist phases ∧ next.told = machine.told ++ heard

/-- Nothing was told where the log is the same. -/
theorem Tells.of_eq {phases : List Phase} (log : next.log = machine.log) :
    Tells phases machine next :=
  ⟨[], List.nil_sublist _, by rw [told, told, log, List.append_nil]⟩

/-- What is told first and then comes in that order. -/
theorem Tells.trans {phases more : List Phase} {last : Machine} (h : Tells phases machine next)
    (h' : Tells more next last) : Tells (phases ++ more) machine last := by
  obtain ⟨heard, sublist, same⟩ := h
  obtain ⟨later, sublist', same'⟩ := h'
  exact ⟨heard ++ later, sublist.append sublist', by rw [same', same, List.append_assoc]⟩

/-- A hook that is called is told what the interpreter is doing, and told again when it has
requested a cancellation. -/
theorem tells_invoke {call : Summons} (found : machine.hooks.get? call.index = some call.hook) :
    Tells (machine.control.answers call.reaction.cancel) machine
      (Action.stateAfter (invoke call.index call.sighting machine)) := by
  obtain ⟨core, hooks, control, log, trace⟩ := machine
  have found : hooks.get? call.index = some call.hook := found
  have heard (entry : HookCall)
      (same : entry.phase :: entry.phaseAfter.toList = control.answers call.reaction.cancel) :
      Tells (control.answers call.reaction.cancel) ⟨core, hooks, control, log, trace⟩
        { core, hooks, control, trace
          log := if call.hook.logged then log.push entry else log } := by
    cases logged : call.hook.logged with
    | true => exact ⟨_, List.Sublist.refl _, by simp [told, ← same]⟩
    | false => exact .of_eq rfl
  have answered (entry : HookCall) (phase : entry.phase = control.phase)
      (phaseAfter : entry.phaseAfter = if call.reaction.cancel then
        some (if call.reaction.cancel then control.cancel else control).phase else none) :
      entry.phase :: entry.phaseAfter.toList = control.answers call.reaction.cancel := by
    rw [phase, phaseAfter, Control.answers]
    cases call.reaction.cancel <;> rfl
  by_cases panics : (call.hook.react (call.hook.calls + 1) call.sighting).panic = true
  · simp only [invoke, found, respond, if_pos panics]
    exact heard _ (answered _ rfl rfl)
  · simp only [invoke, found, respond, if_neg panics]
    exact heard _ (answered _ rfl rfl)

/-- An instruction tells the hook that it calls, and nobody else. -/
theorem tells_execute (record : Record) (machine : Machine) :
    Tells (machine.control.answers
        ((record.summons machine.hooks machine.registers).any fun call => call.reaction.cancel))
      machine (Action.stateAfter (execute record.instruction record.operands machine)) := by
  by_cases wdm : record.instruction.opcode = .wdm
  · rw [execute_of_wdm wdm]
    cases summoned : record.summons machine.hooks machine.registers with
    | none => exact .of_eq rfl
    | some call =>
      have h := tells_invoke (get?_of_summons summoned)
      simp only [Action.bind_apply]
      cases outcome : invoke call.index call.sighting machine <;> rw [outcome] at h <;> exact h
  · rw [execute, if_neg wdm]
    obtain ⟨core, hooks, control, log, trace⟩ := machine
    simp only [onCore]
    cases record.instruction.execute record.operands core <;> exact .of_eq rfl

/-- What hooks are told during an instruction is among the events. -/
theorem tells_step (table : DispatchTable) (machine : Machine) :
    Tells ((machine.stepEvents table).filterMap phase?) machine
      (Action.stateAfter (step table machine)) := by
  have phases : (machine.stepEvents table).filterMap phase? =
      machine.control.answers (machine.asksToCancel table) := by
    rw [stepEvents]
    cases machine.asksToCancel table <;> rfl
  rw [phases, asksToCancel, summons]
  cases read : table.decodeAt machine.bus machine.registers.fullPc machine.registers.widths with
  | error fault =>
    rw [step_of_decodeAt_error read]
    exact .of_eq rfl
  | ok record =>
    have h := tells_execute record (machine.about record)
    rw [step_of_decodeAt read]
    generalize execute record.instruction record.operands (machine.about record) = outcome at h
    cases outcome <;> exact h

/-- On every way of a machine, what hooks are told is among the events. -/
theorem Proceeds.tells (h : Proceeds table events machine next) :
    Tells (events.filterMap phase?) machine next := by
  induction h with
  | rests machine | asks machine | requests machine | equips machine bus hooks | resumes machine
  | releases machine | begins idle start => exact .of_eq rfl
  | trans h h' ih ih' =>
    rw [List.filterMap_append]
    exact ih.trans ih'
  | calls idle start => exact tells_step table _
  | continues running unasked succeeds => exact tells_step table _
  | fails running unasked failed => exact tells_step table _

end Machine

namespace Interpreter

open Event

/-- Whoever is told that a call is stopping, in any session of requests with any hooks: the driver
between two requests, someone who asks while an instruction is carried out, and a hook, also when it
has requested a cancellation itself. All of them are told so after a cancellation was requested in
the active call if, and only if, each call for one instruction begins when no cancellation stands. A
run begins without one; the interpreter knows of a cancellation as long as no run has begun since it
was requested. What the hooks are told, by their log, is among what is said of everybody. -/
theorem stopping_scoped_iff (core : Core) (table : DispatchTable) (config : Config)
    (requests : List Request) :
    let created := create core table config
    let last := Request.performAll requests created
    let history := Request.history requests created
    (Throughout Scoped [] history ↔ Throughout Fresh [] history) ∧
      (last.machine.control.cancelled = true ↔ Standing BeginsRun .request history) ∧
      last.machine.told.Sublist (history.filterMap Event.phase?) := by
  intro created last history
  have proceeds := (Request.proceeds_history (inStage_create core table config) requests).machine
  have stands : created.machine.control.cancelled = true ↔ Standing BeginsRun .request [] :=
    iff_of_false nofun not_standing_nil
  obtain ⟨heard, sublist, told⟩ := proceeds.tells
  refine ⟨(proceeds.scoped_iff stands nofun).1, proceeds.cancelled_iff stands, ?_⟩
  rw [told]
  exact sublist

/-- A cancellation is requested while the interpreter is idle. The hook that the next call for one
instruction calls is told that the call is stopping. -/
theorem not_stopping_scoped :
    let registry : Registry := [⟨0x42, .wdm, .immediate⟩]
    let table : DispatchTable :=
      { registry, admissible := ⟨by decide, by decide⟩
        entries := .ofFn fun i => registry.entry (.ofNat i), entries_eq := rfl }
    let bus := Bus.flat (.whole (Memory.least.setAll 0 [0x42, 0x01]))
    let created := create ⟨{}, bus⟩ table {}
    let hooks : HookTable := HookTable.put {} 0 (some {})
    let requests : List Request := [.install hooks, .cancel, .runOnce none]
    (Request.performAll requests created).machine.told = [.stopping] ∧
      ¬ Throughout Scoped [] (Request.history requests created) := by
  intro registry table bus created hooks requests
  have told : (Request.performAll requests created).machine.told = [.stopping] := by
    decide +kernel
  refine ⟨told, fun honest => ?_⟩
  let before : List Event := [.seen .idle, .seen .idle, .request, .seen .idle]
  have stood := honest (before ++ [.once] ++ [.attempt _]) (.seen .stopping) _ rfl rfl
  rw [List.nil_append, standing_concat, standing_concat] at stood
  simp [BeginsCall] at stood

end Interpreter

end W65C816
