/-!
# Actions

An action runs on a state. It yields a value or fails, and in both cases it leaves a state behind:
what an action did before it failed stays done. This is `EStateM` of the core library, and here are
the two ways in which the library's actions are built from smaller ones. `look` asks a question
about the state and leaves it alone. `place` reads the outcome of an action on a part of a state as
an outcome on the whole.
-/

set_option autoImplicit false

namespace W65C816.Action

variable {ε σ τ α β : Type}

/-- Asks a question that may fail, and leaves the state alone. -/
def look (question : σ → Except ε α) : EStateM ε σ α := fun state =>
  match question state with
  | .ok value => .ok value state
  | .error failure => .error failure state

/-- The outcome of an action on a part, with `build` putting the part back into the whole. -/
def place (build : σ → τ) : EStateM.Result ε σ α → EStateM.Result ε τ α
  | .ok value part => .ok value (build part)
  | .error failure part => .error failure (build part)

/-- The state that an action left behind, whether it succeeded or failed. -/
def stateAfter : EStateM.Result ε σ α → σ
  | .ok _ state => state
  | .error _ state => state

/-- Success leaves the state that it carries. -/
@[simp] theorem stateAfter_ok (value : α) (state : σ) :
    stateAfter (.ok value state : EStateM.Result ε σ α) = state := rfl

/-- Failure leaves the state that it carries. -/
@[simp] theorem stateAfter_error (failure : ε) (state : σ) :
    stateAfter (.error failure state : EStateM.Result ε σ α) = state := rfl

/-- A sequence goes on from the state that its first action left behind, and ends with that action
if it failed. -/
theorem bind_apply (first : EStateM ε σ α) (rest : α → EStateM ε σ β) (state : σ) :
    (first >>= rest) state = match first state with
      | .ok value next => rest value next
      | .error failure next => .error failure next := rfl

/-- An action on a part leaves the whole around what it leaves of the part. -/
@[simp] theorem stateAfter_place (build : σ → τ) (outcome : EStateM.Result ε σ α) :
    stateAfter (place build outcome) = build (stateAfter outcome) := by
  cases outcome <;> rfl

/-- A question leaves the state alone. -/
@[simp] theorem stateAfter_look (question : σ → Except ε α) (state : σ) :
    stateAfter (look question state) = state := by
  unfold look
  split <;> rfl

/-! ## Outcomes that can be computed -/

/-- Whether an outcome is a success with a given value. -/
def yields [DecidableEq α] (value : α) : EStateM.Result ε σ α → Bool
  | .ok found _ => found = value
  | .error _ _ => false

/-- Whether an outcome is a given failure. -/
def failsWith [DecidableEq ε] (failure : ε) : EStateM.Result ε σ α → Bool
  | .ok _ _ => false
  | .error found _ => found = failure

/-- A success is known by its value and the state behind it. -/
theorem eq_ok_of_yields [DecidableEq α] {value : α} {outcome : EStateM.Result ε σ α}
    (h : yields value outcome = true) : outcome = .ok value (stateAfter outcome) := by
  cases outcome with
  | ok found next => rw [of_decide_eq_true h, stateAfter_ok]
  | error failure next => cases h

/-- A failure is known by what failed and the state behind it. -/
theorem eq_error_of_failsWith [DecidableEq ε] {failure : ε} {outcome : EStateM.Result ε σ α}
    (h : failsWith failure outcome = true) : outcome = .error failure (stateAfter outcome) := by
  cases outcome with
  | ok value next => cases h
  | error found next => rw [of_decide_eq_true h, stateAfter_error]

end W65C816.Action
