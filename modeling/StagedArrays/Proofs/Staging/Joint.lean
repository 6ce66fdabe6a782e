import StagedArrays.Proofs.Stateful
import StagedArrays.Value

namespace StagedArrays

/-- Values of two runs that stand for each other, in the order in which they
    came into use. -/
abbrev Bindings := List (Value × Value)

namespace Stateful

variable {ε ε' σ τ α α' β β' : Type}

theorem runFrom_mapCause_eq_ok {f : ε → ε'} {action : Stateful ε σ α} {state after : σ} {a : α} :
    (action.mapCause f).runFrom state = (.ok a, after) ↔ action.runFrom state = (.ok a, after) := by
  rw [runFrom_mapCause, Prod.mk.injEq, mapError_eq_ok_iff, Prod.ext_iff]

/-- Where two actions both succeed from states that belong together, they lead
    to states that do, and their results are related. Bindings may come up in
    the course of it. -/
def Joint (inv : Bindings → σ → τ → Prop) (post : Bindings → α → β → Prop) (bindings : Bindings)
    (action : Stateful ε σ α) (other : Stateful ε' τ β) : Prop :=
  ∀ ⦃state state' a b after after'⦄, inv bindings state state' → action.runFrom state = (.ok a, after) →
    other.runFrom state' = (.ok b, after') →
    ∃ grown, bindings ⊆ grown ∧ inv grown after after' ∧ post grown a b

namespace Joint

variable {inv : Bindings → σ → τ → Prop} {post : Bindings → α → β → Prop} {post' : Bindings → α' → β' → Prop}
  {bindings : Bindings} {action action' : Stateful ε σ α} {other other' : Stateful ε' τ β}

/-- Results that are related need no action. -/
theorem pure {a : α} {b : β} (h : post bindings a b) :
    Joint inv post bindings (pure a : Stateful ε σ α) (pure b : Stateful ε' τ β) := by
  intro state state' _ _ after after' hinv hrun hrun'
  cases hrun
  cases hrun'
  exact ⟨bindings, List.Subset.refl _, hinv, h⟩

/-- What fails succeeds together with nothing. -/
theorem throw (failure : Failure ε) : Joint inv post bindings (throw failure : Stateful ε σ α) other :=
  fun _ _ _ _ _ _ _ hrun => nomatch hrun

/-- Computations without a state are joint if their results are related. -/
theorem lift {m m' : Type → Type} [MonadLiftT m (Except (Failure ε))] [MonadLiftT m' (Except (Failure ε'))]
    {x : m α} {y : m' β} (h : ∀ a b, (liftM x : Except (Failure ε) α) = .ok a →
      (liftM y : Except (Failure ε') β) = .ok b → post bindings a b) :
    Joint inv post bindings (liftM x : Stateful ε σ α) (liftM y : Stateful ε' τ β) := by
  intro state state' a b after after' hinv hrun hrun'
  rw [runFrom_liftM, Prod.mk.injEq] at hrun hrun'
  obtain ⟨hx, rfl⟩ := hrun
  obtain ⟨hy, rfl⟩ := hrun'
  exact ⟨bindings, List.Subset.refl _, hinv, h a b hx hy⟩

/-- Actions that run jointly go on jointly, from whatever bindings the first
    part has come up with. -/
theorem bind {next : α → Stateful ε σ α'} {next' : β → Stateful ε' τ β'} (h : Joint inv post bindings action other)
    (hnext : ∀ grown a b, bindings ⊆ grown → post grown a b → Joint inv post' grown (next a) (next' b)) :
    Joint inv post' bindings (action >>= next) (other >>= next') := by
  intro state state' _ _ after after' hinv hrun hrun'
  obtain ⟨a, between, haction, hrun⟩ := runFrom_bind_eq_ok.mp hrun
  obtain ⟨b, between', hother, hrun'⟩ := runFrom_bind_eq_ok.mp hrun'
  obtain ⟨grown, hgrown, hinv', hpost⟩ := h hinv haction hother
  obtain ⟨final, hfinal, hinv'', hpost'⟩ := hnext grown a b hgrown hpost hinv' hrun hrun'
  exact ⟨final, List.Subset.trans hgrown hfinal, hinv'', hpost'⟩

/-- It is enough to look at actions that succeed wherever the given ones do. -/
theorem of_succeeds (h : Joint inv post bindings action' other')
    (haction : ∀ {state a after}, action.runFrom state = (.ok a, after) → action'.runFrom state = (.ok a, after))
    (hother : ∀ {state b after}, other.runFrom state = (.ok b, after) → other'.runFrom state = (.ok b, after)) :
    Joint inv post bindings action other :=
  fun _ _ _ _ _ _ hinv hrun hrun' => h hinv (haction hrun) (hother hrun')

end Joint

end Stateful

end StagedArrays
