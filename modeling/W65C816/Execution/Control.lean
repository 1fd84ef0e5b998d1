import W65C816.Fault

/-!
# Run control

Whether a call of the interpreter is active, and whether a cancellation was requested. A request
takes effect the next time that it is looked at, between two instructions. It is forgotten when the
next run begins.
-/

set_option autoImplicit false

namespace W65C816

/-- What the interpreter is doing, as anyone who asks is told. -/
inductive Phase where
  | idle
  | running
  /-- A call is active and a cancellation was requested. -/
  | stopping
deriving DecidableEq, Repr

def Phase.name : Phase → String
  | .idle => "Idle"
  | .running => "Running"
  | .stopping => "Stopping"

/-- Whether a call is active, and whether a cancellation was requested. -/
structure Control where
  running : Bool := false
  cancelled : Bool := false
deriving DecidableEq, Repr

namespace Control

/-- What the interpreter is doing. -/
def phase (control : Control) : Phase :=
  if control.running then if control.cancelled then .stopping else .running else .idle

/-- Begins a call, which is refused while another one is active. -/
def begin (control : Control) : Except Fault Control :=
  if control.running then .error (.invalidOperation .alreadyRunning)
  else .ok { control with running := true }

def release (control : Control) : Control :=
  { control with running := false }

def cancel (control : Control) : Control :=
  { control with cancelled := true }

/-- Forgets a request for cancellation. -/
def reset (control : Control) : Control :=
  { control with cancelled := false }

/-- An interpreter is idle as long as nothing runs. -/
theorem phase_eq_idle_iff (control : Control) :
    control.phase = .idle ↔ control.running = false := by
  unfold phase
  cases control.running <;> cases control.cancelled <;> simp

/-- An interpreter is active as long as something runs. -/
theorem phase_ne_idle_iff (control : Control) :
    control.phase ≠ .idle ↔ control.running = true := by
  rw [ne_eq, phase_eq_idle_iff, Bool.not_eq_false]

end Control

end W65C816
