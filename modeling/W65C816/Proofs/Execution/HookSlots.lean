import Mathlib.Data.Set.Card
import W65C816.Proofs.Program.AllOrNothing

/-!
# Whose slot it is

Hooks are registered, removed, cleared and called in any order. `HookSession.after` carries out a
list of such requests and keeps what each of them came to. From these events alone it can be said
which registration is in force in a slot: the one whose slot was neither removed nor cleared since,
`InForce`. The slots of the table are not looked at for that.

What an event does to a slot is `HookEvent.effect`, and `Machine.get?_serve` says that a request
does just this. So a slot always holds the hook whose registration is in force, called as often as
it was since, `Keeps.serve` for one request and `HookSession.keeps_after` for a session. Everything
else about the slots is read off the events with that: `hook_slots_owned`.
-/

set_option autoImplicit false

namespace W65C816

/-! ## Requests and events -/

/-- Something that is asked of the slots for hooks. -/
inductive HookRequest where
  | register (hook : Hook)
  | remove (index : Nat)
  | clear
  | invoke (index : Nat) (sighting : Sighting)

/-- What a request to the slots came to. -/
inductive HookEvent where
  /-- The hook was put into the slot. -/
  | registered (hook : Hook) (index : Nat)
  /-- There was no slot for the hook. -/
  | refused (hook : Hook) (fault : Fault)
  /-- The slot was emptied, and whether there was a hook in it. -/
  | removed (index : Nat) (found : Bool)
  | cleared
  /-- The hook in the slot was called, if there was one, and panicked or not. -/
  | invoked (index : Nat) (sighting : Sighting) (outcome : Except Failure Bool)

/-- Carries out a request. -/
def Machine.serve (machine : Machine) : HookRequest → HookEvent × Machine
  | .register hook =>
    match HookTable.register hook machine.hooks with
    | .ok index hooks => (.registered hook index, { machine with hooks })
    | .error fault hooks => (.refused hook fault, { machine with hooks })
  | .remove index =>
    ((.removed index (machine.hooks.remove index).1),
      { machine with hooks := (machine.hooks.remove index).2 })
  | .clear => (.cleared, { machine with hooks := machine.hooks.clear })
  | .invoke index sighting =>
    match machine.invoke index sighting with
    | .ok found next => (.invoked index sighting (.ok found), next)
    | .error failure next => (.invoked index sighting (.error failure), next)

/-- What requests came to, the first one first, and the machine behind them. -/
structure HookSession where
  events : List HookEvent
  machine : Machine

namespace HookSession

/-- A session with one more request. -/
def make (session : HookSession) (request : HookRequest) : HookSession :=
  { events := session.events ++ [(session.machine.serve request).1]
    machine := (session.machine.serve request).2 }

/-- The requests, carried out one after another. -/
def after (machine : Machine) (requests : List HookRequest) : HookSession :=
  requests.foldl make { events := [], machine }

/-- The last request is made of the machine that the others leave. -/
theorem after_concat (machine : Machine) (requests : List HookRequest) (request : HookRequest) :
    after machine (requests ++ [request]) = (after machine requests).make request := by
  rw [after, List.foldl_append, List.foldl_cons, List.foldl_nil, after]

end HookSession

/-! ## What events say about a slot -/

namespace HookEvent

/-- Whatever hook was in the slot, the event ends its registration. -/
def frees (index : Nat) : HookEvent → Bool
  | .removed i _ => i = index
  | .cleared => true
  | _ => false

/-- The hook in the slot was to be called. -/
def invokes (index : Nat) : HookEvent → Bool
  | .invoked i _ _ => i = index
  | _ => false

/-- The event is about the slot. -/
def concerns (index : Nat) : HookEvent → Bool
  | .registered _ i => i = index
  | .refused _ _ => false
  | .removed i _ => i = index
  | .cleared => true
  | .invoked i _ _ => i = index

/-- What becomes of the hook in a slot. -/
def effect (index : Nat) (event : HookEvent) (before : Option Hook) : Option Hook :=
  match event with
  | .registered hook i => if i = index then some hook else before
  | .refused _ _ => before
  | .removed i _ => if i = index then none else before
  | .cleared => none
  | .invoked i _ _ =>
    if i = index then before.map fun hook => { hook with calls := hook.calls + 1 } else before

/-- An event that is not about a slot leaves the hook in it alone. -/
theorem effect_of_not_concerns {index : Nat} {event : HookEvent}
    (h : event.concerns index = false) (before : Option Hook) :
    event.effect index before = before := by
  cases event with
  | registered hook i => exact if_neg (of_decide_eq_false h)
  | refused hook fault => rfl
  | removed i found => exact if_neg (of_decide_eq_false h)
  | cleared => cases h
  | invoked i sighting outcome => exact if_neg (of_decide_eq_false h)

/-- An event that frees a slot leaves nothing in it. -/
theorem effect_of_frees {index : Nat} {event : HookEvent} (h : event.frees index = true)
    (before : Option Hook) : event.effect index before = none := by
  cases event with
  | removed i found => exact if_pos (of_decide_eq_true h)
  | cleared => rfl
  | registered | refused | invoked => cases h

/-- A hook that is neither replaced nor freed stays, and is counted if it is called. -/
theorem effect_of_stays {index : Nat} {event : HookEvent}
    (other : ¬ ∃ hook, event = .registered hook index) (kept : event.frees index = false)
    (before : Option Hook) :
    event.effect index before = before.map fun hook =>
      { hook with calls := hook.calls + if event.invokes index then 1 else 0 } := by
  have same : (before.map fun hook : Hook => { hook with calls := hook.calls + 0 }) = before :=
    Option.map_id_fun' ▸ rfl
  cases event with
  | registered hook i =>
    rw [effect, if_neg fun here => other ⟨hook, by rw [here]⟩]
    exact same.symm
  | refused hook fault => exact same.symm
  | removed i found =>
    rw [effect, if_neg (of_decide_eq_false kept)]
    exact same.symm
  | cleared => cases kept
  | invoked i sighting outcome =>
    by_cases here : i = index
    · simp only [effect, invokes, here, decide_true, if_true]
    · simp only [effect, invokes, here, decide_false, if_false, Bool.false_eq_true]
      exact same.symm

end HookEvent

/-- The events since one of them. -/
def eventsSince (events : List HookEvent) (since : Nat) : List HookEvent :=
  events.drop (since + 1)

/-- The hook was registered in the slot by the event of that number, and neither was it removed nor
were the slots cleared since then. -/
structure InForce (events : List HookEvent) (hook : Hook) (index since : Nat) : Prop where
  registered : events[since]? = some (.registered hook index)
  kept : ∀ event ∈ eventsSince events since, event.frees index = false

/-- There is a hook in the slot, as the events have it. -/
def Occupied (events : List HookEvent) (index : Nat) : Prop :=
  ∃ hook since, InForce events hook index since

/-- The slot is the least one that is not occupied. -/
structure LeastFree (events : List HookEvent) (index : Nat) : Prop where
  inside : index < hookSlots
  free : ¬ Occupied events index
  least : ∀ i < index, Occupied events i

/-- There is one least slot that is free. -/
theorem LeastFree.unique {events : List HookEvent} {i j : Nat} (hi : LeastFree events i)
    (hj : LeastFree events j) : i = j := by
  rcases Nat.lt_trichotomy i j with less | same | more
  · exact absurd (hj.least i less) hi.free
  · exact same
  · exact absurd (hi.least j more) hj.free

/-- A registered hook, called as often as it was to be called since then. -/
def Hook.calledSince (hook : Hook) (events : List HookEvent) (index since : Nat) : Hook :=
  { hook with
    calls := hook.calls + (eventsSince events since).countP fun event => event.invokes index }

section History

variable {events : List HookEvent} {event : HookEvent} {hook : Hook} {index since : Nat}

/-- The next event comes after those that have happened since an earlier one. -/
theorem eventsSince_concat (earlier : since < events.length) :
    eventsSince (events ++ [event]) since = eventsSince events since ++ [event] :=
  List.drop_append_of_le_length earlier

/-- Nothing has happened since the last event. -/
theorem eventsSince_last : eventsSince (events ++ [event]) events.length = [] := by
  rw [eventsSince, List.drop_eq_nil_iff, List.length_append, List.length_singleton]

/-- A hook in force was registered by one of the events. -/
theorem InForce.since_lt (h : InForce events hook index since) : since < events.length :=
  (List.getElem?_eq_some_iff.mp h.registered).1

/-- What is in force behind one more event was in force before and is not freed, or is what the
event registers. -/
theorem inForce_concat_iff :
    InForce (events ++ [event]) hook index since ↔
      (InForce events hook index since ∧ event.frees index = false) ∨
        (since = events.length ∧ event = .registered hook index) := by
  constructor
  · rintro ⟨registered, kept⟩
    rcases Nat.lt_trichotomy since events.length with earlier | here | later
    · rw [List.getElem?_append_left earlier] at registered
      rw [eventsSince_concat earlier] at kept
      exact .inl ⟨⟨registered, fun e he => kept e (List.mem_append_left _ he)⟩,
        kept event (List.mem_append_right _ List.mem_cons_self)⟩
    · subst here
      rw [List.getElem?_concat_length] at registered
      exact .inr ⟨rfl, Option.some.inj registered⟩
    · have beyond : (events ++ [event]).length ≤ since := by
        rw [List.length_append, List.length_singleton]
        omega
      rw [List.getElem?_eq_none beyond] at registered
      cases registered
  · rintro (⟨before, kept⟩ | ⟨rfl, rfl⟩)
    · refine ⟨?_, ?_⟩
      · rw [List.getElem?_append_left before.since_lt]
        exact before.registered
      · rw [eventsSince_concat before.since_lt]
        intro e he
        rcases List.mem_append.mp he with he | he
        · exact before.kept e he
        · obtain rfl := List.mem_singleton.mp he
          exact kept
    · refine ⟨List.getElem?_concat_length, ?_⟩
      rw [eventsSince_last]
      exact fun e he => absurd he List.not_mem_nil

/-- The next event adds to the calls of a hook if it is one of them. -/
theorem Hook.calledSince_concat (earlier : since < events.length) :
    hook.calledSince (events ++ [event]) index since =
      { hook.calledSince events index since with
        calls := (hook.calledSince events index since).calls +
          if event.invokes index then 1 else 0 } := by
  simp only [Hook.calledSince, eventsSince_concat earlier, List.countP_append,
    List.countP_singleton, Nat.add_assoc]

/-- A hook that was registered last has not been called since. -/
theorem Hook.calledSince_last :
    hook.calledSince (events ++ [event]) index events.length = hook := by
  simp only [Hook.calledSince, eventsSince_last, List.countP_nil, Nat.add_zero]

end History

/-! ## One request -/

/-- Behind a request each slot holds what the event makes of it. -/
theorem Machine.get?_serve (machine : Machine) (request : HookRequest) (index : Nat) :
    (machine.serve request).2.hooks.get? index =
      (machine.serve request).1.effect index (machine.hooks.get? index) := by
  cases request with
  | register hook =>
    have gains := HookTable.allOrNothing_register hook machine.hooks
    cases done : HookTable.register hook machine.hooks with
    | ok place next =>
      simp only [serve, done, HookEvent.effect, (gains.succeeds done).slots, eq_comm]
    | error fault next =>
      simp only [serve, done, HookEvent.effect, gains.fails done]
  | remove place =>
    simp only [serve, HookTable.remove, HookEvent.effect, HookTable.get?_put]
    by_cases same : place = index
    · subst same
      rw [if_pos rfl]
      split
      · rfl
      · next outside =>
        rw [HookTable.get?, dif_neg fun inside => outside ⟨rfl, inside⟩]
    · rw [if_neg same, if_neg fun both => same both.1.symm]
  | clear =>
    simp only [serve, HookTable.clear, HookTable.get?, HookEvent.effect,
      Vector.getElem_replicate, dite_eq_ite, ite_self]
  | invoke place sighting =>
    obtain ⟨core, hooks, control, log, trace⟩ := machine
    unfold serve invoke
    cases found : hooks.get? place with
    | none =>
      simp only [found, HookEvent.effect]
      split
      · next same => rw [← same, found, Option.map_none]
      · rfl
    | some hook =>
      have inside := lt_hookSlots_of_get? found
      have slot : (hooks.put place (some { hook with calls := hook.calls + 1 })).get? index =
          if place = index then (hooks.get? index).map fun hook =>
            { hook with calls := hook.calls + 1 } else hooks.get? index := by
        rw [HookTable.get?_put]
        by_cases same : place = index
        · subst same
          rw [if_pos ⟨rfl, inside⟩, if_pos rfl, found, Option.map_some]
        · rw [if_neg fun both => same both.1.symm, if_neg same]
      simp only [found, respond]
      split <;> next outcome =>
        split at outcome <;> cases outcome
        exact slot

/-- Each slot holds the hook whose registration in it is in force, called as often as it was to be
called since, and every other slot is empty. -/
def Keeps (events : List HookEvent) (hooks : HookTable) : Prop :=
  ∀ index here, hooks.get? index = some here ↔
    ∃ hook since, InForce events hook index since ∧ here = hook.calledSince events index since

namespace Keeps

variable {events : List HookEvent} {hooks : HookTable} {hook : Hook} {index since : Nat}

/-- A table without hooks keeps to no events. -/
theorem nil (hooks : HookTable) (fresh : hooks = {}) : Keeps [] hooks := by
  subst fresh
  intro index here
  constructor
  · intro found
    simp [HookTable.get?] at found
  · rintro ⟨hook, since, inForce, -⟩
    exact absurd inForce.since_lt (Nat.not_lt_zero since)

/-- The hook that lies in a slot. -/
theorem get? (keeps : Keeps events hooks) (h : InForce events hook index since) :
    hooks.get? index = some (hook.calledSince events index since) :=
  (keeps index _).mpr ⟨hook, since, h, rfl⟩

/-- The events tell which slots have a hook. -/
theorem occupied_iff (keeps : Keeps events hooks) (index : Nat) :
    Occupied events index ↔ (hooks.get? index).isSome := by
  rw [Option.isSome_iff_exists]
  constructor
  · rintro ⟨hook, since, inForce⟩
    exact ⟨_, keeps.get? inForce⟩
  · rintro ⟨here, found⟩
    obtain ⟨hook, since, inForce, -⟩ := (keeps index here).mp found
    exact ⟨hook, since, inForce⟩

/-- The events tell which slots have none. -/
theorem free_iff (keeps : Keeps events hooks) (index : Nat) :
    ¬ Occupied events index ↔ hooks.get? index = none := by
  rw [keeps.occupied_iff, Option.not_isSome_iff_eq_none]

/-- One more event, if the hook that it registers is put into a free slot. -/
theorem concat (keeps : Keeps events hooks) {event : HookEvent} {next : HookTable}
    (slots : ∀ index, next.get? index = event.effect index (hooks.get? index))
    (free : ∀ hook index, event = .registered hook index → ¬ Occupied events index) :
    Keeps (events ++ [event]) next := by
  intro index here
  rw [slots]
  by_cases given : ∃ hook, event = .registered hook index
  · obtain ⟨new, rfl⟩ := given
    rw [HookEvent.effect, if_pos rfl, Option.some.injEq]
    constructor
    · rintro rfl
      exact ⟨new, events.length, inForce_concat_iff.mpr (.inr ⟨rfl, rfl⟩),
        Hook.calledSince_last.symm⟩
    · rintro ⟨hook, since, inForce, rfl⟩
      rcases inForce_concat_iff.mp inForce with ⟨before, -⟩ | ⟨rfl, same⟩
      · exact absurd ⟨hook, since, before⟩ (free new index rfl)
      · injection same with same
        rw [Hook.calledSince_last, same]
  · cases freed : event.frees index with
    | true =>
      rw [HookEvent.effect_of_frees freed]
      refine iff_of_false nofun ?_
      rintro ⟨hook, since, inForce, -⟩
      rcases inForce_concat_iff.mp inForce with ⟨-, kept⟩ | ⟨-, same⟩
      · rw [freed] at kept
        cases kept
      · exact given ⟨hook, same⟩
    | false =>
      rw [HookEvent.effect_of_stays given freed, Option.map_eq_some_iff]
      constructor
      · rintro ⟨before, found, rfl⟩
        obtain ⟨hook, since, inForce, rfl⟩ := (keeps index before).mp found
        exact ⟨hook, since, inForce_concat_iff.mpr (.inl ⟨inForce, freed⟩),
          (Hook.calledSince_concat inForce.since_lt).symm⟩
      · rintro ⟨hook, since, inForce, rfl⟩
        rcases inForce_concat_iff.mp inForce with ⟨before, -⟩ | ⟨-, same⟩
        · exact ⟨_, keeps.get? before, (Hook.calledSince_concat before.since_lt).symm⟩
        · exact absurd ⟨hook, same⟩ given

/-- A slot that is given out is the least that is free. -/
theorem leastFree_of_register (keeps : Keeps events hooks) {next : HookTable}
    (h : HookTable.register hook hooks = .ok index next) : LeastFree events index := by
  have gains := (HookTable.allOrNothing_register hook hooks).succeeds h
  exact ⟨gains.inside, (keeps.free_iff index).mpr gains.free,
    fun i before => (keeps.occupied_iff i).mpr (gains.first i before)⟩

/-- No slot is given out exactly if they are all occupied. -/
theorem register_eq_error_iff (keeps : Keeps events hooks) (hook : Hook) (fault : Fault) :
    (∃ next, HookTable.register hook hooks = .error fault next) ↔
      fault = .invalidOperation (.hooksExhausted hookSlots) ∧
        ∀ index < hookSlots, Occupied events index := by
  unfold HookTable.register
  cases found : hooks.firstFree? with
  | none =>
    have taken (index : Nat) (inside : index < hookSlots) : Occupied events index :=
      (keeps.occupied_iff index).mpr (HookTable.isSome_of_firstFree?_eq_none found inside)
    constructor
    · rintro ⟨next, failed⟩
      cases failed
      exact ⟨rfl, taken⟩
    · rintro ⟨rfl, -⟩
      exact ⟨hooks, rfl⟩
  | some place =>
    refine iff_of_false (fun ⟨next, failed⟩ => nomatch failed) ?_
    rintro ⟨-, taken⟩
    exact (keeps.free_iff place).mpr (HookTable.get?_of_firstFree? found) (taken place place.isLt)

/-- The slot that is given out is the least that is free, if one is. -/
theorem register_eq_ok_iff (keeps : Keeps events hooks) (hook : Hook) (index : Nat) :
    (∃ next, HookTable.register hook hooks = .ok index next) ↔ LeastFree events index := by
  constructor
  · rintro ⟨next, done⟩
    exact keeps.leastFree_of_register done
  · intro least
    cases done : HookTable.register hook hooks with
    | error fault next =>
      obtain ⟨-, taken⟩ := (keeps.register_eq_error_iff hook fault).mp ⟨next, done⟩
      exact absurd (taken index least.inside) least.free
    | ok place next =>
      rw [(keeps.leastFree_of_register done).unique least]
      exact ⟨next, rfl⟩

/-- What is said to be registered was put into the least slot that was free. -/
theorem leastFree_of_serve {machine : Machine} {request : HookRequest}
    (keeps : Keeps events machine.hooks)
    (given : (machine.serve request).1 = .registered hook index) : LeastFree events index := by
  cases request with
  | register new =>
    cases done : HookTable.register new machine.hooks with
    | ok place next =>
      simp only [Machine.serve, done] at given
      injection given with _ same
      exact same ▸ keeps.leastFree_of_register done
    | error fault next =>
      simp only [Machine.serve, done] at given
      cases given
  | remove | clear => cases given
  | invoke place sighting =>
    cases done : machine.invoke place sighting <;>
      simp only [Machine.serve, done] at given <;> cases given

end Keeps

/-- Behind one more request the slots are what the events make of them. -/
theorem Keeps.serve {events : List HookEvent} {machine : Machine}
    (keeps : Keeps events machine.hooks) (request : HookRequest) :
    Keeps (events ++ [(machine.serve request).1]) (machine.serve request).2.hooks :=
  keeps.concat (machine.get?_serve request) fun _ _ given =>
    (keeps.leastFree_of_serve given).free

/-- A slot that was given out is not given out again before it was freed. -/
def Exclusive (events : List HookEvent) : Prop :=
  ∀ (hook other : Hook) (index since time : Nat), since < time →
    events[since]? = some (.registered hook index) →
    events[time]? = some (.registered other index) →
    ∃ freed event, since < freed ∧ freed < time ∧ events[freed]? = some event ∧
      event.frees index = true

/-- A slot is occupied from an event that registered a hook in it until it is freed. -/
theorem exists_frees_of_not_occupied {events : List HookEvent} {hook : Hook} {index since : Nat}
    (registered : events[since]? = some (.registered hook index))
    (free : ¬ Occupied events index) :
    ∃ freed event, since < freed ∧ events[freed]? = some event ∧ event.frees index = true := by
  by_contra never
  refine free ⟨hook, since, registered, fun event member => ?_⟩
  obtain ⟨place, found⟩ := List.mem_iff_getElem?.mp member
  rw [eventsSince, List.getElem?_drop] at found
  cases freed : event.frees index with
  | false => rfl
  | true => exact absurd ⟨_, event, by omega, found, freed⟩ never

namespace Exclusive

variable {events : List HookEvent}

/-- Nothing was given out yet. -/
theorem nil : Exclusive [] := by
  intro hook other index since time _ given
  rw [List.getElem?_nil] at given
  cases given

/-- A registration in a slot that is free gives out no slot twice. -/
theorem concat (h : Exclusive events) {event : HookEvent}
    (free : ∀ hook index, event = .registered hook index → ¬ Occupied events index) :
    Exclusive (events ++ [event]) := by
  intro hook other index since time order given again
  have bound : time < (events ++ [event]).length := (List.getElem?_eq_some_iff.mp again).1
  rw [List.length_append, List.length_singleton] at bound
  rw [List.getElem?_append_left (by omega)] at given
  by_cases earlier : time < events.length
  · rw [List.getElem?_append_left earlier] at again
    obtain ⟨freed, e, later, before, found, frees⟩ :=
      h hook other index since time order given again
    exact ⟨freed, e, later, before, by rwa [List.getElem?_append_left (by omega)], frees⟩
  · obtain rfl : time = events.length := by omega
    rw [List.getElem?_concat_length] at again
    obtain ⟨freed, e, later, found, frees⟩ :=
      exists_frees_of_not_occupied given (free other index (Option.some.inj again))
    have inside : freed < events.length := (List.getElem?_eq_some_iff.mp found).1
    exact ⟨freed, e, later, inside, by rwa [List.getElem?_append_left inside], frees⟩

/-- What is in force in a slot is what was registered in it last. -/
theorem recent (h : Exclusive events) {hook other : Hook} {index since time : Nat}
    (inForce : InForce events hook index since)
    (given : events[time]? = some (.registered other index)) : time ≤ since := by
  by_contra later
  obtain ⟨freed, event, after, -, found, frees⟩ :=
    h hook other index since time (by omega) inForce.registered given
  have member : event ∈ eventsSince events since := by
    refine List.mem_iff_getElem?.mpr ⟨freed - (since + 1), ?_⟩
    rw [eventsSince, List.getElem?_drop, Nat.add_sub_cancel' after, found]
  have kept := inForce.kept event member
  rw [frees] at kept
  cases kept

/-- There is one registration that is in force in a slot. -/
theorem unique (h : Exclusive events) {hook other : Hook} {index since time : Nat}
    (first : InForce events hook index since) (second : InForce events other index time) :
    since = time :=
  Nat.le_antisymm (h.recent second first.registered) (h.recent first second.registered)

end Exclusive

/-! ## How many hooks there are -/

/-- The slots of a table are listed by their numbers. -/
theorem HookTable.toList_slots (table : HookTable) :
    table.slots.toList = (List.range hookSlots).map table.get? := by
  refine List.ext_getElem (by simp) fun index inside _ => ?_
  have bound : index < hookSlots := by simpa using inside
  rw [List.getElem_map, List.getElem_range, HookTable.get?, dif_pos bound, Vector.getElem_toList]

/-- The number of the hooks is the number of the slots that have one. -/
theorem HookTable.registered_eq_ncard (table : HookTable) :
    table.registered = {index | (table.get? index).isSome}.ncard := by
  have slots : {index | (table.get? index).isSome} =
      ((Finset.range hookSlots).filter fun index => (table.get? index).isSome : Finset Nat) := by
    ext index
    simp only [Set.mem_ofPred_eq, Finset.coe_filter, Finset.mem_range]
    refine ⟨fun some => ⟨?_, some⟩, And.right⟩
    obtain ⟨hook, found⟩ := Option.isSome_iff_exists.mp some
    exact Machine.lt_hookSlots_of_get? found
  rw [slots, Set.ncard_coe_finset, registered, ← Vector.countP_toList, toList_slots,
    List.countP_map, List.countP_eq_length_filter, Finset.card_def, Finset.filter_val]
  exact congrArg List.length (List.filter_congr fun index _ => (Bool.decide_eq_true).symm)

/-- The events by which hooks were registered that are still in force. -/
def standing (events : List HookEvent) : Set Nat :=
  {since | ∃ hook index, InForce events hook index since}

/-- Each occupied slot has one registration that is in force, and each such registration has its
slot. -/
theorem Exclusive.ncard_standing {events : List HookEvent} (h : Exclusive events) :
    (standing events).ncard = {index | Occupied events index}.ncard := by
  refine Set.ncard_congr (fun _ given => given.choose_spec.choose) ?_ ?_ ?_
  · intro since given
    exact ⟨given.choose, since, given.choose_spec.choose_spec⟩
  · intro since time first second same
    have there := second.choose_spec.choose_spec
    exact h.unique first.choose_spec.choose_spec (same ▸ there)
  · rintro index ⟨hook, since, inForce⟩
    have given : since ∈ standing events := ⟨hook, index, inForce⟩
    have same := given.choose_spec.choose_spec.registered.symm.trans inForce.registered
    injection Option.some.inj same with _ place
    exact ⟨since, given, place⟩

/-! ## Sessions -/

namespace HookSession

variable {machine : Machine}

/-- Behind every session the slots are what its events make of them. -/
theorem keeps_after (fresh : machine.hooks = {}) (requests : List HookRequest) :
    Keeps (after machine requests).events (after machine requests).machine.hooks := by
  induction requests using List.reverseRecOn with
  | nil => exact .nil machine.hooks fresh
  | append_singleton requests request ih =>
    rw [after_concat]
    exact ih.serve request

/-- In no session is a slot given out twice without being freed in between. -/
theorem exclusive_after (fresh : machine.hooks = {}) (requests : List HookRequest) :
    Exclusive (after machine requests).events := by
  induction requests using List.reverseRecOn with
  | nil => exact .nil
  | append_singleton requests request ih =>
    rw [after_concat]
    exact ih.concat fun _ _ given =>
      ((keeps_after fresh requests).leastFree_of_serve given).free

end HookSession

/-- The call of a hook that was registered in a slot and is in force there. -/
def InForce.call {events : List HookEvent} {hook : Hook} {index since : Nat}
    (_inForce : InForce events hook index since) (sighting : Sighting) : Summons :=
  { index, hook := hook.calledSince events index since, sighting }

/-- The slots of a machine belong to the hooks that were registered in them, as the events tell. -/
structure SlotsOwned (events : List HookEvent) (machine : Machine) : Prop where
  /-- There is nothing to be occupied beyond the slots. -/
  inside : ∀ index, Occupied events index → index < hookSlots
  /-- A hook is given the least slot that is not occupied. -/
  given : ∀ hook index, (∃ next, HookTable.register hook machine.hooks = .ok index next) ↔
    LeastFree events index
  /-- A hook is refused exactly if all the slots are occupied. -/
  refused : ∀ hook fault, (∃ next, HookTable.register hook machine.hooks = .error fault next) ↔
    fault = .invalidOperation (.hooksExhausted hookSlots) ∧
      ∀ index < hookSlots, Occupied events index
  /-- A slot that was given out was not given out again before it was freed. -/
  exclusive : Exclusive events
  /-- The hooks that are counted are those that were registered and not removed since. -/
  counted : machine.hooks.registered = (standing events).ncard
  /-- It is a hook that is removed exactly if the slot is occupied. -/
  removed : ∀ index, (machine.hooks.remove index).1 = true ↔ Occupied events index
  /-- What is in force in a slot is what was registered in it last. -/
  recent : ∀ {hook index since}, InForce events hook index since →
    ∀ {other time}, events[time]? = some (.registered other index) → time ≤ since
  /-- The hook that is in force in a slot is the one that is called, and no other. -/
  called : ∀ {hook index since}, ∀ inForce : InForce events hook index since, ∀ sighting,
    ∃ next, Machine.Answered (some (inForce.call sighting)) machine next ∧
      machine.invoke index sighting =
        if (inForce.call sighting).reaction.panic then .error .panic next else .ok true next
  /-- Where no hook is in force nothing is called. -/
  idle : ∀ index, ¬ Occupied events index → ∀ sighting,
    machine.invoke index sighting = .ok false machine
  /-- A request that is not about a slot leaves the hook in it alone. -/
  apart : ∀ request index, (machine.serve request).1.concerns index = false →
    (machine.serve request).2.hooks.get? index = machine.hooks.get? index

/-- What a call of a hook comes to. -/
theorem Machine.invoke_of_get? {call : Summons} {machine : Machine}
    (found : machine.hooks.get? call.index = some call.hook) :
    ∃ next, Answered (some call) machine next ∧ machine.invoke call.index call.sighting =
      if call.reaction.panic then .error .panic next else .ok true next := by
  refine ⟨_, answered_invoke found, ?_⟩
  obtain ⟨core, hooks, control, log, trace⟩ := machine
  have found : hooks.get? call.index = some call.hook := found
  simp only [invoke, found, respond, Summons.reaction]
  split <;> rfl

/-- To call an empty slot does nothing. -/
theorem Machine.invoke_of_get?_eq_none {machine : Machine} {index : Nat}
    (empty : machine.hooks.get? index = none) (sighting : Sighting) :
    machine.invoke index sighting = .ok false machine := by
  obtain ⟨core, hooks, control, log, trace⟩ := machine
  have empty : hooks.get? index = none := empty
  simp only [invoke, empty]

/-- Whatever is asked of the slots, in whatever order, from an empty table on. -/
theorem hook_slots_owned (machine : Machine) (fresh : machine.hooks = {})
    (requests : List HookRequest) :
    SlotsOwned (HookSession.after machine requests).events
      (HookSession.after machine requests).machine := by
  have keeps := HookSession.keeps_after fresh requests
  have exclusive := HookSession.exclusive_after fresh requests
  generalize HookSession.after machine requests = session at keeps exclusive
  exact
    { inside := fun index occupied => by
        obtain ⟨hook, since, inForce⟩ := occupied
        exact Machine.lt_hookSlots_of_get? (keeps.get? inForce)
      given := keeps.register_eq_ok_iff
      refused := keeps.register_eq_error_iff
      exclusive
      counted := by
        rw [HookTable.registered_eq_ncard, exclusive.ncard_standing]
        simp only [keeps.occupied_iff]
      removed := fun index => (keeps.occupied_iff index).symm
      recent := fun inForce _ _ given => exclusive.recent inForce given
      called := fun inForce sighting => Machine.invoke_of_get? (keeps.get? inForce)
      idle := fun index free sighting =>
        Machine.invoke_of_get?_eq_none ((keeps.free_iff index).mp free) sighting
      apart := fun request index other => by
        rw [session.machine.get?_serve, HookEvent.effect_of_not_concerns other] }

/-- Of two hooks the first is removed, and the next hook is given its slot. -/
theorem hook_slots_owned_reused :
    let machine : Machine := { core := ⟨{}, .flat (.whole Memory.least)⟩ }
    let requests : List HookRequest :=
      [.register {}, .register {}, .remove 0, .register {}, .remove 300]
    let session := HookSession.after machine requests
    machine.hooks = {} ∧ SlotsOwned session.events session.machine ∧
      session.events.map (HookEvent.concerns 0) = [true, false, true, true, false] ∧
      session.events.map (HookEvent.concerns 1) = [false, true, false, false, false] ∧
      session.machine.hooks.registered = 2 ∧ (standing session.events).ncard = 2 := by
  intro machine requests session
  have owned : SlotsOwned session.events session.machine :=
    hook_slots_owned machine rfl requests
  have two : session.machine.hooks.registered = 2 := by decide +kernel
  exact ⟨rfl, owned, by decide +kernel, by decide +kernel, two, owned.counted ▸ two⟩

end W65C816
