import W65C816.Proofs.Execution.Atomicity
import W65C816.Proofs.Execution.StackOrder

/-!
# Pushes and pulls that may fail

A number of bytes is pushed exactly if the stack has room for them, `Core.Room`: each of the
positions that the stack pointer goes through names a byte. Otherwise some of them are pushed, and
nothing happens beside that. `Exec.Pushing` says so of an action, in both of its outcomes, and is
closed under sequencing with the numbers added. A pull changes nothing but the stack pointer, which
moves also where there is no byte to be had.
-/

set_option autoImplicit false

namespace W65C816

namespace Registers

/-- Of the registers, the stack pointer alone has moved. -/
def OnlyStack (r s : Registers) : Prop :=
  s = { r with sp := s.sp }

variable {r s t : Registers}

/-- Nothing but the stack pointer differs where nothing differs. -/
theorem onlyStack_refl (r : Registers) : r.OnlyStack r := rfl

/-- Two changes of the stack pointer are one. -/
theorem OnlyStack.trans (h : r.OnlyStack s) (h' : s.OnlyStack t) : r.OnlyStack t := by
  rw [OnlyStack, h] at h'
  exact h'

/-- Raising the stack pointer changes nothing else. -/
theorem onlyStack_raised (r : Registers) (count : Nat) : r.OnlyStack (r.raised count) := rfl

/-- Going on from where a number of pushes leads. -/
theorem sp_lowered_of_top {a : Nat} (emulation : s.emulation = r.emulation)
    (top : s.wrapStack s.sp = (r.lowered a).sp) (b : Nat) :
    (s.lowered b).sp = (r.lowered (a + b)).sp := by
  have wrap (sp : UInt16) : s.wrapStack sp = r.wrapStack sp := by
    rw [wrapStack, wrapStack, emulation]
  have on := s.wrapStack_sub s.sp (UInt16.ofNat b)
  rw [top] at on
  calc (s.lowered b).sp
    _ = s.wrapStack ((r.lowered a).sp - UInt16.ofNat b) := on.symm
    _ = r.wrapStack ((r.lowered a).sp - UInt16.ofNat b) := wrap _
    _ = ((r.lowered a).lowered b).sp := rfl
    _ = (r.lowered (a + b)).sp := by rw [lowered_lowered]

/-- More bytes are pushed below those that were pushed before. -/
theorem pushedPositions_of_top {a : Nat} (emulation : s.emulation = r.emulation)
    (top : s.wrapStack s.sp = (r.lowered a).sp) (b : Nat) :
    r.pushedPositions (a + b) = r.pushedPositions a ++ s.pushedPositions b := by
  rw [pushedPositions_add]
  congr 1
  refine List.map_congr_left fun i _ => ?_
  rw [sp_lowered_of_top emulation top, lowered_lowered]

end Registers

namespace Core

/-- The stack has room for a number of bytes: the positions that they would be pushed to name bytes
of the memory. -/
def Room (core : Core) (count : Nat) : Prop :=
  ∀ position ∈ core.registers.pushedPositions count,
    (core.bus.index? position.toUInt32).isSome

/-- A number of bytes was pushed. -/
structure Pushes (core : Core) (count : Nat) (next : Core) : Prop where
  emulation : next.registers.emulation = core.registers.emulation
  top : next.registers.wrapStack next.registers.sp = (core.registers.lowered count).sp
  changes : core.bus.ChangesAt (core.registers.pushedPositions count) next.bus
  /-- No position names another byte than before. -/
  named : next.bus.index? = core.bus.index?
  room : core.Room count

variable {core middle next : Core} {a b : Nat}

/-- There is always room for nothing. -/
theorem room_zero (core : Core) : core.Room 0 := by
  intro position member
  cases member

/-- To push nothing leaves everything as it is. -/
theorem pushes_zero (core : Core) : core.Pushes 0 core where
  emulation := rfl
  top := by
    show _ = core.registers.wrapStack (core.registers.sp - 0)
    rw [UInt16.sub_zero]
  changes := Bus.changesAt_refl core.bus
  named := rfl
  room := room_zero core

/-- What room there is after a number of pushes. -/
theorem Pushes.room_add_iff (h : core.Pushes a middle) (b : Nat) :
    core.Room (a + b) ↔ middle.Room b := by
  have room := h.room
  unfold Room at room ⊢
  rw [Registers.pushedPositions_of_top h.emulation h.top, h.named, List.forall_mem_append]
  exact and_iff_right room

/-- Bytes that are pushed after others are pushed together with them. -/
theorem Pushes.trans (h : core.Pushes a middle) (h' : middle.Pushes b next) :
    core.Pushes (a + b) next where
  emulation := h'.emulation.trans h.emulation
  top := h'.top.trans (Registers.sp_lowered_of_top h.emulation h.top b)
  changes := by
    rw [Registers.pushedPositions_of_top h.emulation h.top]
    exact h.changes.trans h'.changes
  named := h'.named.trans h.named
  room := (h.room_add_iff b).mpr h'.room

/-- Where there is room for all bytes there is room for the first ones. -/
theorem Room.left (h : core.Room (a + b)) : core.Room a := by
  intro position member
  apply h
  rw [Registers.pushedPositions_add]
  exact List.mem_append_left _ member

/-- Registers other than the stack pointer do not matter to what is pushed. -/
theorem Pushes.congr {other : Core} (h : core.Pushes a next) (same : next.SameStack other) :
    core.Pushes a other where
  emulation := same.emulation.trans h.emulation
  top := (Registers.wrapStack_sp_congr same.sp same.emulation).trans h.top
  changes := by
    rw [same.bus]
    exact h.changes
  named := by rw [same.bus, h.named]
  room := h.room

/-- The outcome is that a number of bytes was pushed and nothing else happened, or that the stack
has no room for them, and fewer were pushed. -/
inductive Pushed (core : Core) (count : Nat) : EStateM.Result Fault Core Unit → Prop
  | ok {next : Core} (only : core.registers.OnlyStack next.registers)
      (pushes : core.Pushes count next) : Pushed core count (.ok () next)
  | error {fault : Fault} {next : Core} {some : Nat} (fewer : some < count)
      (only : core.registers.OnlyStack next.registers) (pushes : core.Pushes some next)
      (full : ¬ core.Room count) : Pushed core count (.error fault next)

end Core

namespace Exec

open W65C816.Core

/-- The action pushes a number of bytes if the stack has room for them, and does nothing else. -/
def Pushing (count : Nat) (action : Exec Unit) : Prop :=
  ∀ core : Core, core.Pushed count (action core)

variable {core next : Core} {a b count : Nat} {first second : Exec Unit}

/-- When pushing succeeds all bytes are pushed. -/
theorem Pushing.of_ok (h : Pushing count first) (done : first core = .ok () next) :
    core.registers.OnlyStack next.registers ∧ core.Pushes count next := by
  have outcome := h core
  rw [done] at outcome
  cases outcome with
  | ok only pushes => exact ⟨only, pushes⟩

/-- When pushing fails there is no room for all bytes, and fewer are pushed. -/
theorem Pushing.of_error {fault : Fault} (h : Pushing count first)
    (failed : first core = .error fault next) :
    core.registers.OnlyStack next.registers ∧ ¬ core.Room count ∧
      ∃ some < count, core.Pushes some next := by
  have outcome := h core
  rw [failed] at outcome
  cases outcome with
  | error fewer only pushes full => exact ⟨only, full, _, fewer, pushes⟩

/-- A value pushes nothing. -/
theorem pushing_pure : Pushing 0 (pure ()) :=
  fun core => .ok (Registers.onlyStack_refl _) (pushes_zero core)

/-- Two actions that push one after the other push all of their bytes. -/
theorem Pushing.bind (hfirst : Pushing a first) (hsecond : Pushing b second) :
    Pushing (a + b) (first >>= fun _ => second) := by
  intro core
  have before := hfirst core
  rw [Action.bind_apply]
  generalize first core = outcome at before
  cases before with
  | error fewer only pushes full =>
    exact .error (Nat.lt_add_right b fewer) only pushes fun room => full room.left
  | @ok middle only pushes =>
    have after := hsecond middle
    dsimp only
    generalize second middle = outcome at after ⊢
    cases after with
    | ok only' pushes' => exact .ok (only.trans only') (pushes.trans pushes')
    | error fewer only' pushes' full =>
      exact .error (Nat.add_lt_add_left fewer a) (only.trans only') (pushes.trans pushes')
        fun room => full ((pushes.room_add_iff b).mp room)

/-- Pushing on a condition pushes all or nothing. -/
theorem pushing_onlyIf {condition : Bool} (h : Pushing count first) :
    Pushing (if condition then count else 0) (onlyIf condition first) := by
  cases condition
  · exact pushing_pure
  · exact h

/-- Pushing a byte pushes one byte. -/
theorem pushing_push8 (value : UInt8) : Pushing 1 (push8 value) := by
  intro core
  have positions := core.registers.pushedPositions_one
  cases outcome : push8 value core with
  | ok _ next =>
    obtain ⟨_, _, asked, rest⟩ := Action.exists_of_bind_eq_ok outcome
    cases asked
    obtain ⟨_, _, wrote, lower⟩ := Action.exists_of_bind_eq_ok rest
    obtain ⟨bus, written, rfl⟩ := onBus_eq_ok_iff.mp wrote
    cases lower
    obtain ⟨i, named, rfl⟩ := (Bus.write8_eq_ok_iff _ _ _ _).mp written
    refine .ok rfl ⟨rfl, core.registers.wrapStack_wrapStack _, changesAt_of_push8 outcome, ?_, ?_⟩
    · exact funext fun position => Bus.index?_put _ _ _ position
    · unfold Room
      rw [positions, List.forall_mem_singleton, named]
      rfl
  | error fault next =>
    obtain rfl := atomic_push8 value core outcome
    refine .error Nat.one_pos (Registers.onlyStack_refl _) (pushes_zero _) fun room => ?_
    unfold Room at room
    rw [positions, List.forall_mem_singleton] at room
    obtain ⟨i, named⟩ := Option.isSome_iff_exists.mp room
    have wrote := onBus_of_ok ((Bus.write8_eq_ok_iff _ _ _ value).mpr ⟨i, named, rfl⟩)
    obtain ⟨last, done⟩ : ∃ last, push8 value next = .ok () last :=
      ⟨_, (Action.bind_of_ok (registers_apply next)).trans (Action.bind_of_ok wrote)⟩
    cases outcome.symm.trans done

/-- Pushing a word pushes two bytes. -/
theorem pushing_push16 (value : UInt16) : Pushing 2 (push16 value) :=
  (pushing_push8 _).bind (pushing_push8 _)

/-! ## Pulls -/

/-- A pull moves the stack pointer, whether there is a byte to be had or not. -/
theorem pull8_apply (core : Core) :
    pull8 core = match core.peek 0 with
      | .ok value => .ok value ⟨core.registers.raised 1, core.bus⟩
      | .error fault => .error fault ⟨core.registers.raised 1, core.bus⟩ := by
  have byte : core.bus.read8 (core.registers.wrapStack (core.registers.sp + 1)).toUInt32 =
      core.peek 0 := rfl
  rw [pull8, Action.bind_of_ok (alter_apply _ _)]
  simp only [ask, Action.look, byte]
  cases core.peek 0 <;> rfl

/-- A byte is pulled if it can be seen on top, and the pointer is raised by one. -/
theorem pull8_eq_ok_iff {value : UInt8} :
    pull8 core = .ok value next ↔
      core.peek 0 = .ok value ∧ next = ⟨core.registers.raised 1, core.bus⟩ := by
  rw [pull8_apply]
  cases core.peek 0 <;> simp [eq_comm]

/-- A byte that cannot be pulled has raised the pointer. -/
theorem eq_of_pull8_error {fault : Fault} (h : pull8 core = .error fault next) :
    next = ⟨core.registers.raised 1, core.bus⟩ := by
  rw [pull8_apply] at h
  split at h <;> cases h
  rfl

/-- A word is pulled if both of its bytes can be seen on top, and the pointer is raised by two. -/
theorem pull16_eq_ok_iff {value : UInt16} :
    pull16 core = .ok value next ↔
      ∃ low high, core.peek 0 = .ok low ∧ core.peek 1 = .ok high ∧ value = Word.join high low ∧
        next = ⟨core.registers.raised 2, core.bus⟩ := by
  constructor
  · intro h
    obtain ⟨low, _, first, rest⟩ := Action.exists_of_bind_eq_ok h
    obtain ⟨found, rfl⟩ := pull8_eq_ok_iff.mp first
    obtain ⟨high, _, second, rest⟩ := Action.exists_of_bind_eq_ok rest
    obtain ⟨found', rfl⟩ := pull8_eq_ok_iff.mp second
    cases rest
    rw [Core.peek_raised rfl rfl] at found'
    rw [Registers.raised_raised]
    exact ⟨low, high, found, found', rfl, rfl⟩
  · rintro ⟨low, high, found, found', rfl, rfl⟩
    exact pull16_of_peek found found'

/-- A word that cannot be pulled lacks one of its bytes, and the stack pointer has moved to where
that would be. -/
theorem exists_of_pull16_error {fault : Fault} (h : pull16 core = .error fault next) :
    (∃ count, next = ⟨core.registers.raised count, core.bus⟩) ∧
      ∀ low high, core.peek 0 = .ok low → core.peek 1 ≠ .ok high := by
  constructor
  · rcases Action.bind_eq_error_iff.mp h with first | ⟨low, middle, first, rest⟩
    · exact ⟨1, eq_of_pull8_error first⟩
    · obtain ⟨-, rfl⟩ := pull8_eq_ok_iff.mp first
      rcases Action.bind_eq_error_iff.mp rest with second | ⟨high, last, -, done⟩
      · have raised := eq_of_pull8_error second
        rw [Registers.raised_raised] at raised
        exact ⟨2, raised⟩
      · cases done
  · intro low high first second
    rw [pull16_of_peek first second] at h
    cases h

end Exec

end W65C816
