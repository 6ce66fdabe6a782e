namespace StagedArrays

/-- A broken rule of use. Unlike an error it is no result of an operation:
    nothing on the way out handles it, except that entered contexts are left. -/
inductive Fault where
  | addOverflow
  | multiplyOverflow
  | capacityOverflow
  | literalWithoutValue
  | guardOutOfOrder (stack guard : Nat)
  | callsTooDeep
  | notificationsTooDeep
  deriving DecidableEq

namespace Fault

/-- What is told where a run breaks off. The texts of overflows are those of
    word arithmetic. -/
def message : Fault → String
  | addOverflow => "attempt to add with overflow"
  | multiplyOverflow => "attempt to multiply with overflow"
  | capacityOverflow => "capacity overflow"
  | literalWithoutValue => "a literal node needs a value"
  | guardOutOfOrder stack guard =>
    "assertion `left == right` failed: context guards dropped out of order\n  left: " ++ toString stack
      ++ "\n right: " ++ toString guard
  | callsTooDeep => "calls are nested too deeply"
  | notificationsTooDeep => "notifications are nested too deeply"

end Fault

/-- How an operation ends when it has no result. An error is reported to the
    caller; a fault ends the program that runs into it. -/
inductive Failure (ε : Type) where
  | error (cause : ε)
  | fault (fault : Fault)
  deriving DecidableEq

/-- A computation over a state `σ` whose effects stay when it fails. Failing is
    no way back: what was written before is still there. -/
abbrev Stateful (ε σ α : Type) := ExceptT (Failure ε) (StateM σ) α

namespace Failure

/-- Rewords the cause of an error; a fault stays as it is. Layers wrap the
    errors of those below in this way. -/
def map {ε ε' : Type} (f : ε → ε') : Failure ε → Failure ε'
  | error cause => error (f cause)
  | fault found => fault found

end Failure

/-- A computation that can only fault is one that can also fail. -/
instance liftFault {ε : Type} : MonadLift (Except Fault) (Except (Failure ε)) where
  monadLift x := x.mapError .fault

/-- A computation that can only fail is one that can also fault. -/
instance liftError {ε : Type} : MonadLift (Except ε) (Except (Failure ε)) where
  monadLift x := x.mapError .error

namespace Stateful

/-- The outcome of an action on a state, and the state it leaves. All that is
    proved of an action is said in terms of it. -/
def runFrom {ε σ α : Type} (action : Stateful ε σ α) (state : σ) : Except (Failure ε) α × σ :=
  action.run.run state

/-- Rewords the causes of errors. -/
def mapCause {ε ε' σ α : Type} (f : ε → ε') (action : Stateful ε σ α) : Stateful ε' σ α :=
  ExceptT.adapt (Failure.map f) action

/-- Fails with a cause. What was done up to here stays done. -/
def fail {ε σ α : Type} (cause : ε) : Stateful ε σ α := throw (.error cause)

/-- Runs an action on a part of a state. `split` takes the part out and tells
    what the state is with another part in its place. -/
def focus {ε σ τ α : Type} (split : σ → τ × (τ → σ)) (action : Stateful ε τ α) :
    Stateful ε σ α :=
  ExceptT.mk fun state =>
    let (part, whole) := split state
    let (result, part) := action.runFrom part
    (result, whole part)

/-- The outcome of an action as a value; the state is kept. Cleaning up after a
    failure begins with it. -/
def attempt {ε σ α : Type} (action : Stateful ε σ α) : Stateful ε σ (Except (Failure ε) α) :=
  ExceptT.mk fun state =>
    let (result, state) := action.runFrom state
    (.ok result, state)

/-- Ends with a given outcome. After `attempt` it passes on what was held
    back. -/
def settle {ε σ α : Type} : Except (Failure ε) α → Stateful ε σ α
  | .ok value => pure value
  | .error failure => throw failure

section Laws

variable {ε σ τ α β : Type}

@[simp]
theorem runFrom_pure (value : α) (state : σ) :
    (pure value : Stateful ε σ α).runFrom state = (.ok value, state) := rfl

@[simp]
theorem runFrom_throw (failure : Failure ε) (state : σ) :
    (throw failure : Stateful ε σ α).runFrom state = (.error failure, state) := rfl

@[simp]
theorem runFrom_fail (cause : ε) (state : σ) :
    (fail cause : Stateful ε σ α).runFrom state = (.error (.error cause), state) := rfl

@[simp]
theorem runFrom_get (state : σ) : (get : Stateful ε σ σ).runFrom state = (.ok state, state) := rfl

@[simp]
theorem runFrom_set (next state : σ) :
    (set next : Stateful ε σ PUnit).runFrom state = (.ok ⟨⟩, next) := rfl

/-- A sequence stops where its first part fails, with the state that part
    leaves. -/
theorem runFrom_bind (action : Stateful ε σ α) (next : α → Stateful ε σ β) (state : σ) :
    (action >>= next).runFrom state =
      match action.runFrom state with
      | (.ok value, after) => (next value).runFrom after
      | (.error failure, after) => (.error failure, after) := by
  simp only [runFrom, bind, ExceptT.bind, ExceptT.mk, ExceptT.run, StateT.run, StateT.bind]
  cases h : action state with
  | mk outcome after => cases outcome <;> rfl

/-- A sequence goes on from where its first part has ended. The value is handed
    to the second. -/
theorem runFrom_bind_of_ok {action : Stateful ε σ α} {state after : σ} {value : α}
    (h : action.runFrom state = (.ok value, after)) (next : α → Stateful ε σ β) :
    (action >>= next).runFrom state = (next value).runFrom after := by
  rw [runFrom_bind, h]

/-- A sequence whose first part fails ends there. The second part is not
    executed. -/
theorem runFrom_bind_of_error {action : Stateful ε σ α} {state after : σ} {failure : Failure ε}
    (h : action.runFrom state = (.error failure, after)) (next : α → Stateful ε σ β) :
    (action >>= next).runFrom state = (.error failure, after) := by
  rw [runFrom_bind, h]

@[simp]
theorem runFrom_attempt (action : Stateful ε σ α) (state : σ) :
    (attempt action).runFrom state = (.ok (action.runFrom state).1, (action.runFrom state).2) := rfl

@[simp]
theorem runFrom_settle (outcome : Except (Failure ε) α) (state : σ) :
    (settle outcome : Stateful ε σ α).runFrom state = (outcome, state) := by
  cases outcome <;> rfl

/-- Only the focused part of the state can change. The rest is put back around
    whatever the action leaves of it. -/
@[simp]
theorem runFrom_focus (split : σ → τ × (τ → σ)) (action : Stateful ε τ α) (state : σ) :
    (focus split action).runFrom state =
      ((action.runFrom (split state).1).1,
        (split state).2 (action.runFrom (split state).1).2) := rfl

end Laws

/-- Runs `body` on `first`, `first + 1`, and so on, `count` times in all, until
    one fails. -/
def repeatFrom {ε σ : Type} (body : Nat → Stateful ε σ Unit) : (count first : Nat) → Stateful ε σ Unit
  | 0, _ => pure ()
  | count + 1, first => do
    body first
    repeatFrom body count (first + 1)

end Stateful

namespace Word

/-- Words have sixty-four bits. Sizes, offsets and indices are natural numbers
    below this bound, and leaving it is a fault. -/
def bound : Nat := UInt64.size

def add (a b : Nat) : Except Fault Nat :=
  if a + b < bound then .ok (a + b) else .error .addOverflow

def mul (a b : Nat) : Except Fault Nat :=
  if a * b < bound then .ok (a * b) else .error .multiplyOverflow

theorem add_eq_ok_iff {a b c : Nat} : add a b = .ok c ↔ c = a + b ∧ c < bound := by
  unfold add
  split <;> grind

theorem mul_eq_ok_iff {a b c : Nat} : mul a b = .ok c ↔ c = a * b ∧ c < bound := by
  unfold mul
  split <;> grind

end Word

end StagedArrays
