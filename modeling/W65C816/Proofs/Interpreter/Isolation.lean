import W65C816.Catalog.Standard
import W65C816.Proofs.Execution.Access
import W65C816.Proofs.Interpreter.Lockstep
import W65C816.Proofs.Memory.Windows

/-!
# Sessions do not see past their window

A session of calls and memory accesses is carried out twice, by the same interpreter on two buses
that mirror each other. Where their windows lie in their memories makes no difference, nor does
anything that is around the windows: both sessions are answered alike and leave interpreters that
are the same but for their buses, and neither memory has changed outside its window.

A step is made of accesses, so machines over related buses keep in lockstep, and interpreters
answer every request alike on them: `Request.respects_perform`. `Use.respects_performAll` is the
induction over a session.
-/

set_option autoImplicit false

namespace W65C816

/-! ## Calls -/

namespace Interpreter

variable {relation : Bus → Bus → Prop} {α β : Type}

/-- Interpreters that are the same but for their buses, which are related. -/
inductive Over (relation : Bus → Bus → Prop) : Interpreter → Interpreter → Prop
  | intro {machine other : Machine} (h : Machine.Over relation machine other)
    (table : DispatchTable) (config : Config) (lastError : Option Fault)
    (stopReason : Option StopReason) (worker : Option Worker) :
    Over relation ⟨machine, table, config, lastError, stopReason, worker⟩
      ⟨other, table, config, lastError, stopReason, worker⟩

abbrev Respects (relation : Bus → Bus → Prop) (call : Call α) : Prop :=
  Action.Simulates (Over relation) call call

variable {interpreter other : Interpreter}

/-- Interpreters over related buses are a pair with the same settings. -/
theorem over_iff_paired : Over relation interpreter other ↔
    Paired (Machine.Over relation) Eq interpreter other := by
  constructor
  · rintro ⟨related, table, config, error, reason, worker⟩
    exact ⟨related, table, rfl, error, reason, worker⟩
  · rintro ⟨related, table, rfl, error, reason, worker⟩
    exact ⟨related, table, _, error, reason, worker⟩

/-- A call respects related buses when it keeps pairs over them with the same settings. -/
theorem respects_iff_keepsStep {call : Call α} :
    Respects relation call ↔ KeepsStep (Machine.Over relation) Eq call :=
  ⟨.congr over_iff_paired, .congr over_iff_paired.symm⟩

/-- Changing the answer of a call adds no access. -/
theorem respects_map (change : α → β) {call : Call α} (h : Respects relation call) :
    Respects relation (change <$> call) :=
  respects_iff_keepsStep.mpr (keepsStep_map change (respects_iff_keepsStep.mp h))

/-- A call on the machine respects a relation of the buses if its action does. -/
theorem respects_onMachine {action : DispatchTable → MachineAction α}
    (h : ∀ table, Machine.Respects relation (action table)) :
    Respects relation (onMachine action) :=
  respects_iff_keepsStep.mpr (keepsStep_onMachine h)

end Interpreter

/-- Every request keeps interpreters over related buses, unless it replaces the bus. -/
theorem Request.respects_perform {relation : Bus → Bus → Prop} (h : Bus.Bisimulation relation)
    {request : Request} (stays : ∀ bus, request ≠ .attach bus) :
    Interpreter.Respects relation request.perform :=
  Interpreter.respects_iff_keepsStep.mpr <|
    keepsStep_perform (Machine.lockstep_over h) (fun bus same => absurd same (stays bus))
      fun same => congrArg Config.policy same

/-! ## Accesses of memory -/

namespace Bus

/-- An access of the memory behind a bus. -/
inductive Access where
  | length
  | check (position : UInt32) (count : Nat)
  | read8 (position : UInt32)
  | read16 (position : UInt32)
  | read24 (position : UInt32)
  | readBlock (position : UInt32) (count : Nat)
  | write8 (position : UInt32) (value : UInt8)
  | write16 (position : UInt32) (value : UInt16)
  | write24 (position : UInt32) (value : UInt32)
  | writeBlock (position : UInt32) (values : List UInt8)

/-- What an access is answered. -/
inductive Reading where
  | done
  | length (length : Nat)
  | byte (value : UInt8)
  | word (value : UInt16)
  | long (value : UInt32)
  | block (values : List UInt8)

namespace Access

/-- Carries out an access. -/
def perform : Access → EStateM Fault Bus Reading
  | .length => Action.look fun bus => .ok (.length bus.length)
  | .check position count => Action.look fun bus => (fun _ => .done) <$> bus.check position count
  | .read8 position => Action.look fun bus => Reading.byte <$> bus.read8 position
  | .read16 position => Action.look fun bus => Reading.word <$> bus.read16 position
  | .read24 position => Action.look fun bus => Reading.long <$> bus.read24 position
  | .readBlock position count =>
    Action.look fun bus => Reading.block <$> bus.readBlock position count
  | .write8 position value => do Bus.write8 position value; pure .done
  | .write16 position value => do Bus.write16 position value; pure .done
  | .write24 position value => do Bus.write24 position value; pure .done
  | .writeBlock position values => do Bus.writeBlock position values; pure .done

variable {relation : Bus → Bus → Prop}

/-- An access by the host does the same on buses that answer alike and have the same length. -/
theorem simulates_perform (h : Bisimulation relation)
    (length : ∀ {bus other}, relation bus other → bus.length = other.length) (access : Access) :
    Action.Simulates relation access.perform access.perform := by
  have asked {question : Bus → Except Fault Reading}
      (same : ∀ {bus other}, relation bus other → question bus = question other) :
      Action.Simulates relation (Action.look question) (Action.look question) :=
    Action.simulates_look same
  have written {action : EStateM Fault Bus Unit} (h : Action.Simulates relation action action) :
      Action.Simulates relation (do action; pure Reading.done) (do action; pure Reading.done) :=
    h.bind fun _ => Action.simulates_pure Reading.done
  cases access with
  | length =>
    unfold perform
    exact asked fun related => by rw [length related]
  | check position count => exact asked fun related => by rw [h.check related]
  | read8 position => exact asked fun related => by rw [h.read8 related]
  | read16 position => exact asked fun related => by rw [h.read16 related]
  | read24 position => exact asked fun related => by rw [h.read24 related]
  | readBlock position count => exact asked fun related => by rw [h.readBlock related]
  | write8 position value => exact written (h.write8 position value)
  | write16 position value => exact written (h.write16 position value)
  | write24 position value => exact written (h.write24 position value)
  | writeBlock position values => exact written (h.writeBlock position values)

end Access

end Bus

/-! ## Sessions -/

namespace Interpreter

/-- The interpreter on another bus. -/
def on (bus : Bus) (interpreter : Interpreter) : Interpreter :=
  interpreter.alterMachine fun machine => { machine with core := { machine.core with bus } }

/-- The registers stay on another bus. -/
@[simp] theorem registers_on (bus : Bus) (interpreter : Interpreter) :
    (interpreter.on bus).registers = interpreter.registers := rfl

/-- The bus that the interpreter is on. -/
def bus (interpreter : Interpreter) : Bus :=
  interpreter.machine.bus

/-- An action on the bus. -/
def onBus {α : Type} (action : EStateM Fault Bus α) : Call α :=
  onMachine fun _ => Machine.onCore (Exec.onBus action)

end Interpreter

/-- One step of a session: something is asked of the interpreter, which stays on its bus, or the
memory is accessed through the bus. -/
inductive Use where
  | ask (request : Request) (stays : ∀ bus, request ≠ .attach bus)
  | access (memory : Bus.Access)

namespace Use

/-- What comes of a use, if it does not fail. -/
inductive Result where
  | answer (answer : Answer)
  | reading (reading : Bus.Reading)

def perform : Use → Call Result
  | .ask request _ => Result.answer <$> request.perform
  | .access memory => Result.reading <$> Interpreter.onBus memory.perform

/-- What came of an action, the state that it left behind aside. -/
def result {ε σ α : Type} : EStateM.Result ε σ α → Except ε α
  | .ok value _ => .ok value
  | .error failure _ => .error failure

/-- The interpreter behind a session, each use of which may succeed or fail. -/
def performAll : List Use → Interpreter → Interpreter
  | [], interpreter => interpreter
  | use :: rest, interpreter => performAll rest (Action.stateAfter (use.perform interpreter))

/-- What comes of each use of a session. -/
def results : List Use → Interpreter → List (Except Failure Result)
  | [], _ => []
  | use :: rest, interpreter =>
    result (use.perform interpreter) ::
      results rest (Action.stateAfter (use.perform interpreter))

variable {relation : Bus → Bus → Prop}

/-- A use of the interpreter does the same on buses that answer alike and have the same length. -/
theorem respects_perform (h : Bus.Bisimulation relation)
    (length : ∀ {bus other}, relation bus other → bus.length = other.length) (use : Use) :
    Interpreter.Respects relation use.perform := by
  cases use with
  | ask request stays => exact Interpreter.respects_map _ (Request.respects_perform h stays)
  | access memory =>
    have haccess := memory.simulates_perform h length
    apply Interpreter.respects_map
    apply Interpreter.respects_onMachine
    intro _
    exact Machine.respects_onCore (Exec.respects_onBus haccess)

/-- A session of any length, by induction over its uses. -/
theorem respects_performAll (h : Bus.Bisimulation relation)
    (length : ∀ {bus other}, relation bus other → bus.length = other.length) (uses : List Use)
    {interpreter other : Interpreter} (alike : Interpreter.Over relation interpreter other) :
    results uses interpreter = results uses other ∧
      Interpreter.Over relation (performAll uses interpreter) (performAll uses other) := by
  induction uses generalizing interpreter other with
  | nil => exact ⟨rfl, alike⟩
  | cons use rest ih =>
    have huse := respects_perform h length use interpreter other alike
    simp only [results, performAll]
    generalize use.perform interpreter = outcome at huse
    generalize use.perform other = outcome' at huse
    cases huse with
    | ok value alike =>
      obtain ⟨same, last⟩ := ih alike
      exact ⟨congrArg (_ :: ·) same, last⟩
    | error failure alike =>
      obtain ⟨same, last⟩ := ih alike
      exact ⟨congrArg (_ :: ·) same, last⟩

end Use

namespace Interpreter

variable {relation : Bus → Bus → Prop} {interpreter other : Interpreter}

/-- An interpreter on related buses is over the relation. -/
theorem over_on (interpreter : Interpreter) {bus other : Bus} (h : relation bus other) :
    Over relation (interpreter.on bus) (interpreter.on other) := by
  obtain ⟨⟨⟨r, _⟩, hooks, control, log, trace⟩, table, config, error, reason, worker⟩ := interpreter
  exact ⟨⟨⟨r, h⟩, hooks, control, log, trace⟩, table, config, error, reason, worker⟩

/-- The buses of interpreters over a relation are related. -/
theorem Over.bus (h : Over relation interpreter other) :
    relation interpreter.bus other.bus := by
  obtain ⟨⟨⟨r, related⟩, hooks, control, log, trace⟩, table, config, error, reason, worker⟩ := h
  exact related

/-- Interpreters over a relation differ in their buses alone. -/
theorem Over.eq_on (h : Over relation interpreter other) :
    other = interpreter.on other.bus := by
  obtain ⟨⟨⟨r, related⟩, hooks, control, log, trace⟩, table, config, error, reason, worker⟩ := h
  rfl

end Interpreter

/-- Buses that mirror each other have the same length. -/
theorem Bus.Mirrors.length {bus other : Bus} (h : bus.Mirrors other) :
    bus.length = other.length := by
  cases h with
  | flat h => exact h.length
  | banked h => exact h.length

/-- A byte that both sides had in common they still have in common, inside the windows because they
mirror each other there, and outside because nothing has changed there. -/
theorem Bus.Twins.byteAt_eq {origin origin' bus other : Bus}
    (twins : Twins origin origin' bus other) {p : Nat}
    (same : origin.view.byteAt p = origin'.view.byteAt p) :
    bus.view.byteAt p = other.view.byteAt p := by
  by_cases inside : p < origin.reach
  · cases twins with
    | flat h => exact h.mirrors.same p inside
    | banked h => exact h.mirrors.same p inside
  · have first := twins.first
    have second := twins.second
    unfold View.byteAt at same ⊢
    rw [first.start, second.start, first.outside _ (by omega), second.outside _ (by omega), same]

/-- A session that is carried out on two buses that mirror each other comes to the same on both:
each use succeeds with the same value or fails with the same failure, and the interpreters end up
the same but for their buses, so with the same registers, the same log of the calls of hooks, the
same trace and the same errors. The buses still mirror each other, and positions at which both views
had the same byte have the same byte again. Neither memory has changed outside its window. -/
theorem session_isolated (interpreter : Interpreter) {bus other : Bus} (mirrors : bus.Mirrors other)
    (uses : List Use) :
    let last := Use.performAll uses (interpreter.on bus)
    let last' := Use.performAll uses (interpreter.on other)
    Use.results uses (interpreter.on bus) = Use.results uses (interpreter.on other) ∧
      last' = last.on last'.bus ∧
      last.bus.Mirrors last'.bus ∧
      (∀ p, bus.view.byteAt p = other.view.byteAt p →
        last.bus.view.byteAt p = last'.bus.view.byteAt p) ∧
      View.Confined bus.reach bus.view last.bus.view ∧
      View.Confined other.reach other.view last'.bus.view := by
  intro last last'
  obtain ⟨same, alike⟩ := Use.respects_performAll (Bus.bisimulation_twins bus other)
    (fun twins => twins.mirrors.length) uses (interpreter.over_on mirrors.twins)
  have twins := alike.bus
  have reach : bus.reach = other.reach := by
    cases mirrors with
    | flat h => exact h.length
    | banked h => exact congrArg (min · Banked.reach) h.length
  refine ⟨same, alike.eq_on, twins.mirrors, fun p => twins.byteAt_eq, twins.first, ?_⟩
  rw [← reach]
  exact twins.second

/-- The same eight bytes at the start of one memory and, behind other bytes, at the end of another.
The program in them counts its last byte up and stops; the session sets that byte, runs the program,
and then reads past the end of the window. -/
theorem session_isolated_behind_other_bytes :
    let program : List UInt8 := [0xEE, 0x07, 0x00, 0xDB, 0, 0, 0, 0]
    let here : View :=
      ⟨Memory.least, 0, 8, Memory.size_pos _, by rw [Memory.size_least]; decide⟩
    let there : View :=
      ⟨Memory.least.setAll 0x1F0 [1, 2, 3, 4, 5, 6, 7, 8], 0x1F8, 8,
        by rw [Memory.size_setAll, Memory.size_least]; decide,
        Nat.le_of_eq (by rw [Memory.size_setAll, Memory.size_least])⟩
    let view := here.setAll (here.start + 0) program
    let other := there.setAll (there.start + 0) program
    let interpreter := Interpreter.create ⟨{}, .flat view⟩ .standard {}
    let uses : List Use :=
      [.access (.write8 7 0x41), .ask (.run none (fun _ => false) 2) (by simp),
        .access (.read16 7)]
    let last := Use.performAll uses (interpreter.on (.flat view))
    let last' := Use.performAll uses (interpreter.on (.flat other))
    (Bus.flat view).Mirrors (.flat other) ∧
      Use.results uses (interpreter.on (.flat view)) =
        Use.results uses (interpreter.on (.flat other)) ∧
      last'.registers = last.registers ∧
      View.Confined 8 view last.bus.view ∧ View.Confined 8 other last'.bus.view := by
  intro program here there view other interpreter uses last last'
  have first : view.Holds 0 program := View.holds_setAll (Nat.le_refl 8)
  have second : other.Holds 0 program := View.holds_setAll (Nat.le_refl 8)
  have length : view.length = 8 := View.length_setAll here _ program
  have length' : other.length = 8 := View.length_setAll there _ program
  have mirrors : (Bus.flat view).Mirrors (.flat other) := by
    refine .flat ⟨length.trans length'.symm, fun p below => ?_⟩
    rw [length] at below
    have same := (first.byteAt below).trans (second.byteAt below).symm
    rw [Nat.zero_add] at same
    exact same
  obtain ⟨results, same, -, -, confined, confined'⟩ := session_isolated interpreter mirrors uses
  have registers : last'.registers = last.registers :=
    (congrArg Interpreter.registers same).trans (Interpreter.registers_on _ _)
  exact ⟨mirrors, results, registers, confined, confined'⟩

end W65C816
