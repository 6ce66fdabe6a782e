import Mathlib.Algebra.Group.Int.Defs
import Mathlib.Algebra.GroupWithZero.Nat
import Mathlib.Order.Defs.Unbundled
import StagedArrays.Error

namespace StagedArrays

/-- A sequence of outcomes succeeds exactly when both parts do. Computations
    that succeeded are taken apart by it. -/
theorem bind_eq_ok_iff {ε α β : Type} {x : Except ε α} {f : α → Except ε β} {b : β} :
    (x >>= f) = .ok b ↔ ∃ a, x = .ok a ∧ f a = .ok b := by
  cases x with
  | error e => simp [bind, Except.bind]
  | ok a => simp [bind, Except.bind]

theorem ok_bind {ε α β : Type} (a : α) (f : α → Except ε β) : (.ok a >>= f) = f a := rfl

theorem error_bind {ε α β : Type} (e : ε) (f : α → Except ε β) : (.error e >>= f) = .error e := rfl

/-- Only failures are mapped. A success says the same before and after. -/
theorem mapError_eq_ok_iff {ε ε' α : Type} {f : ε → ε'} {x : Except ε α} {a : α} : x.mapError f = .ok a ↔ x = .ok a := by
  cases x with
  | error e => exact iff_of_false (fun h => by cases h) (fun h => by cases h)
  | ok b => exact ⟨fun h => by cases h; rfl, fun h => by cases h; rfl⟩

@[simp]
theorem liftM_fault_eq_ok_iff {ε α : Type} {x : Except Fault α} {a : α} :
    (liftM x : Except (Failure ε) α) = .ok a ↔ x = .ok a := mapError_eq_ok_iff

@[simp]
theorem liftM_error_eq_ok_iff {ε α : Type} {x : Except ε α} {a : α} :
    (liftM x : Except (Failure ε) α) = .ok a ↔ x = .ok a := mapError_eq_ok_iff

@[simp]
theorem liftM_layoutError_eq_ok_iff {α : Type} {x : Except LayoutError α} {a : α} :
    (liftM x : Outcome α) = .ok a ↔ x = .ok a := mapError_eq_ok_iff

@[simp]
theorem liftM_layoutFailure_eq_ok_iff {α : Type} {x : Except (Failure LayoutError) α} {a : α} :
    (liftM x : Outcome α) = .ok a ↔ x = .ok a := mapError_eq_ok_iff

@[simp]
theorem liftM_fault_ok {ε α : Type} (a : α) :
    (liftM (.ok a : Except Fault α) : Except (Failure ε) α) = .ok a := rfl

@[simp]
theorem liftM_error_ok {ε α : Type} (a : α) :
    (liftM (.ok a : Except ε α) : Except (Failure ε) α) = .ok a := rfl

@[simp]
theorem liftM_layoutError_ok {α : Type} (a : α) :
    (liftM (.ok a : Except LayoutError α) : Outcome α) = .ok a := rfl

@[simp]
theorem liftM_layoutFailure_ok {α : Type} (a : α) :
    (liftM (.ok a : Except (Failure LayoutError) α) : Outcome α) = .ok a := rfl

@[simp]
theorem liftM_self {ε α : Type} (x : Except ε α) : (liftM x : Except ε α) = x := rfl

namespace Stateful

variable {ε σ τ α β : Type}

/-- What only computes an outcome leaves the state as it is, whichever way it
    may fail. -/
@[simp]
theorem runFrom_liftM {m : Type → Type} [MonadLiftT m (Except (Failure ε))] (x : m α) (state : σ) :
    (liftM x : Stateful ε σ α).runFrom state = (liftM x, state) := rfl

@[simp]
theorem runFrom_modify (f : σ → σ) (state : σ) :
    (modify f : Stateful ε σ PUnit).runFrom state = (.ok ⟨⟩, f state) := rfl

@[simp]
theorem runFrom_mapCause {ε' : Type} (f : ε → ε') (action : Stateful ε σ α) (state : σ) :
    (action.mapCause f).runFrom state =
      ((action.runFrom state).1.mapError (Failure.map f), (action.runFrom state).2) := rfl

/-- Making something of a result leaves the state as it is. A failure stays what
    it is. -/
@[simp]
theorem runFrom_map (f : α → β) (action : Stateful ε σ α) (state : σ) :
    (f <$> action).runFrom state =
      match action.runFrom state with
      | (.ok value, after) => (.ok (f value), after)
      | (.error failure, after) => (.error failure, after) := by
  rw [← bind_pure_comp, runFrom_bind]
  rfl

/-- A sequence succeeds exactly when its first part does, and its second part
    from there. -/
theorem runFrom_bind_eq_ok {action : Stateful ε σ α} {next : α → Stateful ε σ β} {state final : σ}
    {result : β} :
    (action >>= next).runFrom state = (.ok result, final) ↔
      ∃ value after, action.runFrom state = (.ok value, after) ∧
        (next value).runFrom after = (.ok result, final) := by
  rw [runFrom_bind]
  cases action.runFrom state with
  | mk outcome after =>
    cases outcome with
    | error failure => simp
    | ok value =>
      constructor
      · exact fun h => ⟨value, after, rfl, h⟩
      · rintro ⟨_, _, heq, h⟩
        cases heq
        exact h

/-- An attempt always succeeds, and gives the outcome. The state is that of the
    action. -/
theorem runFrom_attempt_eq_ok {action : Stateful ε σ α} {outcome : Except (Failure ε) α} {state after : σ} :
    (attempt action).runFrom state = (.ok outcome, after) ↔ action.runFrom state = (outcome, after) := by
  rw [runFrom_attempt]
  cases action.runFrom state
  simp

/-- Whatever the outcome, the final state comes after the one before. All that
    operations preserve is stated with an order of its own. -/
def Moves (order : σ → σ → Prop) (action : Stateful ε σ α) : Prop :=
  ∀ state, order state (action.runFrom state).2

section Moves

variable {order : σ → σ → Prop} [IsPreorder σ order]

/-- What does not change the state moves along any order. Orders are
    reflexive. -/
theorem Moves.of_eq {action : Stateful ε σ α} (h : ∀ state, (action.runFrom state).2 = state) :
    Moves order action := by
  intro state
  rw [h state]
  exact refl_of order state

theorem Moves.pure (value : α) : Moves order (pure value : Stateful ε σ α) := .of_eq fun _ => rfl

theorem Moves.throw (failure : Failure ε) : Moves order (throw failure : Stateful ε σ α) := .of_eq fun _ => rfl

theorem Moves.fail (cause : ε) : Moves order (fail cause : Stateful ε σ α) := .throw _

theorem Moves.lift {m : Type → Type} [MonadLiftT m (Except (Failure ε))] (x : m α) :
    Moves order (liftM x : Stateful ε σ α) := .of_eq fun _ => rfl

/-- A sequence moves the state forward if each of its parts does, whatever value
    is handed on. Here the order has to be transitive. -/
theorem Moves.bind {action : Stateful ε σ α} {next : α → Stateful ε σ β} (h : Moves order action)
    (hnext : ∀ value, Moves order (next value)) : Moves order (action >>= next) := by
  intro state
  have hfirst := h state
  rw [runFrom_bind]
  cases hrun : action.runFrom state with
  | mk outcome after =>
    rw [hrun] at hfirst
    cases outcome with
    | error failure => exact hfirst
    | ok value => exact trans_of order hfirst (hnext value after)

/-- Computing an outcome first moves nothing. The rest is considered only for
    values that are computed. -/
theorem order_lift_bind {m : Type → Type} [MonadLiftT m (Except (Failure ε))] {x : m α}
    {next : α → Stateful ε σ β} {state : σ}
    (h : ∀ value, (liftM x : Except (Failure ε) α) = .ok value → order state ((next value).runFrom state).2) :
    order state ((liftM x >>= next : Stateful ε σ β).runFrom state).2 := by
  rw [runFrom_bind, runFrom_liftM]
  cases hx : (liftM x : Except (Failure ε) α) with
  | error failure => exact refl_of order state
  | ok value => exact h value hx

theorem Moves.map {action : Stateful ε σ α} (f : α → β) (h : Moves order action) : Moves order (f <$> action) := by
  rw [← bind_pure_comp]
  exact h.bind fun _ => .pure _

/-- To settle an outcome changes nothing. So it moves along every order. -/
theorem Moves.settle (outcome : Except (Failure ε) α) : Moves order (settle outcome : Stateful ε σ α) := by
  cases outcome with
  | ok value => exact .pure value
  | error failure => exact .throw failure

omit [IsPreorder σ order] in
/-- An attempt moves as its action does. Only the outcome is another. -/
theorem Moves.attempt {action : Stateful ε σ α} (h : Moves order action) : Moves order (attempt action) := by
  intro state
  rw [runFrom_attempt]
  exact h state

/-- A loop moves along an order if its body does. By induction on the list. -/
theorem Moves.forM {xs : List α} {body : α → Stateful ε σ Unit} (h : ∀ x, Moves order (body x)) :
    Moves order (xs.forM body) := by
  induction xs with
  | nil => exact .pure _
  | cons x xs ih => exact .bind (h x) fun _ => ih

/-- A counted loop moves along an order if its body does. By recursion on the
    count. -/
theorem Moves.repeatFrom {body : Nat → Stateful ε σ Unit} (h : ∀ index, Moves order (body index)) :
    ∀ count first, Moves order (repeatFrom body count first)
  | 0, _ => .pure _
  | count + 1, first => .bind (h first) fun _ => Moves.repeatFrom h count (first + 1)

end Moves

end Stateful

end StagedArrays
