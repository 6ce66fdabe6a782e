import StagedArrays.Proofs.Stateful

namespace StagedArrays

namespace Stateful

/-- How a run ends: `value` says what holds where it succeeds, `cause` what
    holds where it fails, and `broken` what a fault would tell. -/
structure Ends {ε σ α : Type} (value : α → σ → Prop) (cause : ε → σ → Prop) (broken : Prop)
    (run : Except (Failure ε) α × σ) : Prop where
  ok : ∀ a, run.1 = .ok a → value a run.2
  error : ∀ e, run.1 = .error (.error e) → cause e run.2
  fault : ∀ fault, run.1 = .error (.fault fault) → broken

/-- How two runs end, which have to end alike unless the first of them
    faults. -/
structure Couples {ε σ τ α : Type} (value : α → σ → τ → Prop) (cause : ε → σ → τ → Prop) (broken : Prop)
    (run : Except (Failure ε) α × σ) (other : Except (Failure ε) α × τ) : Prop where
  outcome_eq : (∀ fault, run.1 ≠ .error (.fault fault)) → other.1 = run.1
  ok : ∀ a, run.1 = .ok a → value a run.2 other.2
  error : ∀ e, run.1 = .error (.error e) → cause e run.2 other.2
  fault : ∀ fault, run.1 = .error (.fault fault) → broken

variable {ε σ τ α β : Type}

namespace Ends

variable {value value' : α → σ → Prop} {cause cause' : ε → σ → Prop} {broken : Prop} {state : σ}
  {run : Except (Failure ε) α × σ}

theorem of_ok {a : α} (h : value a state) : Ends value cause broken (.ok a, state) :=
  ⟨fun _ heq => by cases heq; exact h, fun _ heq => (nomatch heq), fun _ heq => (nomatch heq)⟩

theorem of_error {e : ε} (h : cause e state) : Ends value cause broken (.error (.error e), state) :=
  ⟨fun _ heq => (nomatch heq), fun _ heq => by cases heq; exact h, fun _ heq => (nomatch heq)⟩

theorem of_fault {fault : Fault} (h : broken) : Ends value cause broken (.error (.fault fault), state) :=
  ⟨fun _ heq => (nomatch heq), fun _ heq => (nomatch heq), fun _ _ => h⟩

theorem mono (h : Ends value cause broken run) (hvalue : ∀ a state, value a state → value' a state)
    (hcause : ∀ e state, cause e state → cause' e state) : Ends value' cause' broken run :=
  ⟨fun a heq => hvalue a _ (h.ok a heq), fun e heq => hcause e _ (h.error e heq), h.fault⟩

/-- What is known of a run in two ways is known of it. Invariants can so be
    proved apart and used together. -/
theorem and {broken' : Prop} (h : Ends value cause broken run) (h' : Ends value' cause' broken' run) :
    Ends (fun a state => value a state ∧ value' a state) (fun e state => cause e state ∧ cause' e state) broken run :=
  ⟨fun a heq => ⟨h.ok a heq, h'.ok a heq⟩, fun e heq => ⟨h.error e heq, h'.error e heq⟩, h.fault⟩

theorem of_false (h : Ends value cause False run) : Ends value cause broken run :=
  ⟨h.ok, h.error, fun fault heq => (h.fault fault heq).elim⟩

/-- What holds both after success and after an error holds in the end, where
    there can be no fault. -/
theorem always {after : σ → Prop} (h : Ends (fun _ => after) (fun _ => after) False run) : after run.2 := by
  obtain ⟨(e | fault) | a, state⟩ := run
  · exact h.error e rfl
  · exact (h.fault fault rfl).elim
  · exact h.ok a rfl

theorem of_moves {order : σ → σ → Prop} {action : Stateful ε σ α} (h : Moves order action) (state : σ) :
    Ends (fun _ => order state) (fun _ => order state) True (action.runFrom state) :=
  ⟨fun _ _ => h state, fun _ _ => h state, fun _ _ => trivial⟩

/-- What ends as described goes on as described if its continuation does, from
    each state and value that the first part can end with. -/
theorem bind {next : α → Stateful ε σ β} {action : Stateful ε σ α} {value' : β → σ → Prop}
    (h : Ends value cause broken (action.runFrom state))
    (hnext : ∀ a after, value a after → Ends value' cause broken ((next a).runFrom after)) :
    Ends value' cause broken ((action >>= next).runFrom state) := by
  rw [runFrom_bind]
  cases hrun : action.runFrom state with
  | mk outcome after =>
    rw [hrun] at h
    rcases outcome with (e | fault) | a
    · exact of_error (h.error e rfl)
    · exact of_fault (h.fault fault rfl)
    · exact hnext a after (h.ok a rfl)

/-- A computation that can only fault changes no state, so that it ends as
    described wherever a fault is allowed for. -/
theorem lift_fault {x : Except Fault α} (hbroken : broken) (h : ∀ a, x = .ok a → value a state) :
    Ends value cause broken ((liftM x : Stateful ε σ α).runFrom state) := by
  rw [runFrom_liftM]
  cases x with
  | error fault => exact of_fault hbroken
  | ok a => exact of_ok (h a rfl)

/-- What each pass of a loop keeps up the loop keeps up. By induction on the
    list that is gone through. -/
theorem forM_of_invariant {inv : σ → Prop} {xs : List α} {body : α → Stateful ε σ Unit}
    (h : ∀ x ∈ xs, ∀ state, inv state → Ends (fun _ => inv) (fun _ => inv) broken ((body x).runFrom state)) (hinv : inv state) :
    Ends (fun _ => inv) (fun _ => inv) broken ((xs.forM body).runFrom state) := by
  induction xs generalizing state with
  | nil => exact of_ok hinv
  | cons x xs ih =>
    obtain ⟨hx, hxs⟩ := List.forall_mem_cons.mp h
    exact bind (hx state hinv) fun _ after hafter => ih hxs hafter

end Ends

namespace Couples

variable {value value' : α → σ → τ → Prop} {cause cause' : ε → σ → τ → Prop} {broken : Prop} {state : σ} {other : τ}
  {run : Except (Failure ε) α × σ} {run' : Except (Failure ε) α × τ}

theorem of_ok {a : α} (h : value a state other) : Couples value cause broken (.ok a, state) (.ok a, other) :=
  ⟨fun _ => rfl, fun _ heq => by cases heq; exact h, fun _ heq => (nomatch heq), fun _ heq => (nomatch heq)⟩

theorem of_error {e : ε} (h : cause e state other) :
    Couples value cause broken (.error (.error e), state) (.error (.error e), other) :=
  ⟨fun _ => rfl, fun _ heq => (nomatch heq), fun _ heq => by cases heq; exact h, fun _ heq => (nomatch heq)⟩

theorem of_fault {fault : Fault} (h : broken) : Couples value cause broken (.error (.fault fault), state) run' :=
  ⟨fun hne => (hne fault rfl).elim, fun _ heq => (nomatch heq), fun _ heq => (nomatch heq), fun _ _ => h⟩

/-- The other run gives the same value. The states of the two may differ. -/
theorem outcome_of_ok {a : α} (h : Couples value cause broken run run') (heq : run.1 = .ok a) : run'.1 = .ok a :=
  (h.outcome_eq fun _ hfault => nomatch hfault.symm.trans heq).trans heq

/-- The other run fails with the same error. The states of the two may
    differ. -/
theorem outcome_of_error {e : ε} (h : Couples value cause broken run run') (heq : run.1 = .error (.error e)) :
    run'.1 = .error (.error e) :=
  (h.outcome_eq fun _ hfault => nomatch hfault.symm.trans heq).trans heq

/-- Two runs that end alike end in one of three ways: with the same value, with
    the same error, or the first of them with a fault. -/
@[elab_as_elim]
theorem elim {motive : Except (Failure ε) α × σ → Except (Failure ε) α × τ → Prop} (h : Couples value cause broken run run')
    (hok : ∀ a state other, value a state other → motive (.ok a, state) (.ok a, other))
    (herror : ∀ e state other, cause e state other → motive (.error (.error e), state) (.error (.error e), other))
    (hfault : ∀ fault state run', broken → motive (.error (.fault fault), state) run') : motive run run' := by
  obtain ⟨outcome, state⟩ := run
  obtain ⟨outcome', other⟩ := run'
  rcases outcome with (e | fault) | a
  · obtain rfl : outcome' = .error (.error e) := h.outcome_of_error rfl
    exact herror e state other (h.error e rfl)
  · exact hfault fault state _ (h.fault fault rfl)
  · obtain rfl : outcome' = .ok a := h.outcome_of_ok rfl
    exact hok a state other (h.ok a rfl)

theorem mono (h : Couples value cause broken run run') (hvalue : ∀ a state other, value a state other → value' a state other)
    (hcause : ∀ e state other, cause e state other → cause' e state other) : Couples value' cause' broken run run' :=
  ⟨h.outcome_eq, fun a heq => hvalue a _ _ (h.ok a heq), fun e heq => hcause e _ _ (h.error e heq), h.fault⟩

theorem of_false (h : Couples value cause False run run') : Couples value cause broken run run' :=
  ⟨h.outcome_eq, h.ok, h.error, fun fault heq => (h.fault fault heq).elim⟩

/-- Two sequences run in step if their first parts do, and if the rest runs in
    step from every pair of states that the first parts lead to. The first run
    is remembered, since a later part may depend on what it found. -/
theorem bind {next : α → Stateful ε σ β} {next' : α → Stateful ε τ β} {action : Stateful ε σ α}
    {action' : Stateful ε τ α} {value' : β → σ → τ → Prop}
    (h : Couples value cause broken (action.runFrom state) (action'.runFrom other))
    (hnext : ∀ a after after', action.runFrom state = (.ok a, after) → value a after after' →
      Couples value' cause broken ((next a).runFrom after) ((next' a).runFrom after')) :
    Couples value' cause broken ((action >>= next).runFrom state) ((action' >>= next').runFrom other) := by
  rw [runFrom_bind, runFrom_bind]
  rcases hrun : action.runFrom state with ⟨outcome, after⟩
  rcases hrun' : action'.runFrom other with ⟨outcome', after'⟩
  rw [hrun, hrun'] at h
  rcases outcome with (e | fault) | a
  · obtain rfl : outcome' = .error (.error e) := h.outcome_of_error rfl
    exact of_error (h.error e rfl)
  · exact of_fault (h.fault fault rfl)
  · obtain rfl : outcome' = .ok a := h.outcome_of_ok rfl
    exact hnext a after after' hrun (h.ok a rfl)

/-- Sequences go together where `later` holds of the end of the first of them,
    and of a state if of one that comes after. -/
theorem bind_of_later {later : σ → Prop} {next : α → Stateful ε σ β} {next' : α → Stateful ε τ β}
    {action : Stateful ε σ α} {action' : Stateful ε τ α} {value' : β → σ → τ → Prop}
    (hlater : later ((action >>= next).runFrom state).2)
    (hmoves : ∀ a, Moves (fun before after => later after → later before) (next a))
    (h : later (action.runFrom state).2 → Couples value cause broken (action.runFrom state) (action'.runFrom other))
    (hnext : ∀ a after after', value a after after' → later ((next a).runFrom after).2 →
      Couples value' cause broken ((next a).runFrom after) ((next' a).runFrom after')) :
    Couples value' cause broken ((action >>= next).runFrom state) ((action' >>= next').runFrom other) := by
  have hfirst : later (action.runFrom state).2 := by
    rw [runFrom_bind] at hlater
    rcases hrun : action.runFrom state with ⟨failure | a, after⟩
    · rw [hrun] at hlater
      exact hlater
    · rw [hrun] at hlater
      exact hmoves a after hlater
  refine bind (h hfirst) fun a after after' hrun hvalue => hnext a after after' hvalue ?_
  rwa [runFrom_bind_of_ok hrun] at hlater

/-- Two runs that end alike end as each of them is known to. What is known of
    one alone is carried over in this way. -/
theorem and_ends {value₁ : α → σ → Prop} {cause₁ : ε → σ → Prop} {value₂ : α → τ → Prop} {cause₂ : ε → τ → Prop}
    {broken₁ broken₂ : Prop} (h : Couples value cause broken run run') (h₁ : Ends value₁ cause₁ broken₁ run)
    (h₂ : Ends value₂ cause₂ broken₂ run') :
    Couples (fun a s t => value a s t ∧ value₁ a s ∧ value₂ a t) (fun e s t => cause e s t ∧ cause₁ e s ∧ cause₂ e t) broken
      run run' := by
  exact ⟨h.outcome_eq, fun a heq => ⟨h.ok a heq, h₁.ok a heq, h₂.ok a (h.outcome_of_ok heq)⟩,
    fun e heq => ⟨h.error e heq, h₁.error e heq, h₂.error e (h.outcome_of_error heq)⟩, h.fault⟩

theorem ends {value : α → σ → σ → Prop} {cause : ε → σ → σ → Prop} (h : Couples value cause broken run run) :
    Ends (fun a after => value a after after) (fun e after => cause e after after) broken run :=
  ⟨h.ok, h.error, h.fault⟩

end Couples

/-- A run goes along with itself, so that a statement about two runs can be had
    from one about a single one. -/
theorem Ends.couples {value : α → σ → Prop} {cause : ε → σ → Prop} {broken : Prop} {run : Except (Failure ε) α × σ}
    (h : Ends value cause broken run) :
    Couples (fun a s t => t = s ∧ value a s) (fun e s t => t = s ∧ cause e s) broken run run :=
  ⟨fun _ => rfl, fun a heq => ⟨rfl, h.ok a heq⟩, fun e heq => ⟨rfl, h.error e heq⟩, h.fault⟩

end Stateful

end StagedArrays
