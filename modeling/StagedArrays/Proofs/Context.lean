import StagedArrays.Context.Definition
import StagedArrays.Proofs.Stateful

namespace StagedArrays

/-- The same contexts are entered. Operations on storage and emitters leave the
    stack of contexts alone. -/
def World.Stays {σ : Type} (world after : World σ) : Prop := after.contexts = world.contexts

instance {σ : Type} : IsPreorder (World σ) World.Stays where
  refl _ := rfl
  trans _ _ _ h h' := Eq.trans h' h

/-- The same world with another client. What the library does to a world does
    not depend on what the client keeps in it. -/
def World.withClient {σ τ : Type} (world : World σ) (client : τ) : World τ :=
  ⟨world.heap, world.emitters, world.contexts, client⟩

namespace Action

variable {σ α : Type} {world after : World σ}

@[simp]
theorem runFrom_onHeap (action : HeapM α) (world : World σ) :
    (onHeap action).runFrom world =
      ((action.runFrom world.heap).1, { world with heap := (action.runFrom world.heap).2 }) := rfl

/-- A failure on the heap is one of the action. What was done to the heap before
    it stays. -/
theorem runFrom_onHeap_of_error {action : HeapM α} {world : World σ} {failure : Failure ValueError}
    {heap : Heap} (h : action.runFrom world.heap = (.error failure, heap)) :
    (onHeap action).runFrom world = (.error failure, { world with heap := heap }) := by
  rw [runFrom_onHeap, h]

/-- What an emitter does changes this emitter and no other. Where there is none
    of its name, nothing is kept. -/
@[simp]
theorem runFrom_onEmitter (id : EmitterId) (action : EmitterM α) (world : World σ) :
    (onEmitter id action).runFrom world =
      ((action.runFrom (world.emitters[id.index]?.getD default)).1,
        { world with
          emitters := world.emitters.setIfInBounds id.index
            (action.runFrom (world.emitters[id.index]?.getD default)).2 }) := rfl

/-- The active context is the one that was entered last. Asking for it changes
    nothing. -/
theorem runFrom_activeContext {context : Context} {world : World σ}
    (h : world.contexts.head? = some context) :
    (activeContext : Action σ Context).runFrom world = (.ok context, world) := by
  unfold activeContext
  rw [Stateful.runFrom_bind, Stateful.runFrom_get]
  dsimp only
  split
  · next first rest hcontexts =>
    rw [hcontexts, List.head?_cons, Option.some.injEq] at h
    rw [h, Stateful.runFrom_pure]
  · next hcontexts => simp [hcontexts] at h

/-- A guard that was handed out for the current depth leaves exactly the context
    on top. -/
theorem runFrom_leave_of_length_eq {guard : Guard} (h : world.contexts.length = guard.depth) :
    (leave guard).runFrom world = (.ok (), { world with contexts := world.contexts.tail }) := by
  unfold leave
  rw [Stateful.runFrom_bind, Stateful.runFrom_get]
  dsimp only
  rw [if_pos h, Stateful.runFrom_set]

/-- A guard of any other depth is dropped out of order: the assertion fails and
    the stack stays as it is. -/
theorem runFrom_leave_of_length_ne {guard : Guard} (h : world.contexts.length ≠ guard.depth) :
    (leave guard).runFrom world =
      (.error (.fault (.guardOutOfOrder world.contexts.length guard.depth)), world) := by
  unfold leave
  rw [Stateful.runFrom_bind, Stateful.runFrom_get]
  dsimp only
  rw [if_neg h, Stateful.runFrom_throw]

/-- What leaves its context on top runs with the context entered, and ends with
    the context left. -/
theorem runFrom_withContext_of_length_eq {context : Context} {body : Action σ α} {inner : World σ}
    {outcome : Except (Failure ValueError) α}
    (hbody : body.runFrom { world with contexts := context :: world.contexts } = (outcome, inner))
    (hlength : inner.contexts.length = world.contexts.length + 1) :
    (withContext context body).runFrom world = (outcome, { inner with contexts := inner.contexts.tail }) := by
  have hleave := @runFrom_leave_of_length_eq σ inner ⟨world.contexts.length + 1⟩ hlength
  simp only [withContext, enter, Stateful.runFrom_bind, Stateful.runFrom_get, Stateful.runFrom_set,
    Stateful.runFrom_pure, Stateful.runFrom_attempt, hbody]
  rcases outcome with (cause | fault) | value
  · simp only [Stateful.runFrom_bind, hleave, Stateful.runFrom_settle]
  · simp only [Functor.discard, map_const, Function.comp_apply, map_eq_pure_bind, Stateful.runFrom_bind,
      Stateful.runFrom_attempt, hleave]
    rfl
  · simp only [Stateful.runFrom_bind, hleave, Stateful.runFrom_settle]

/-- What runs under a context runs with the context entered, and the context is
    left after it. To leave contexts out of order is a fault. -/
theorem runFrom_withContext (context : Context) (body : Action σ α) (world : World σ) :
    let (outcome, inner) := body.runFrom { world with contexts := context :: world.contexts }
    (withContext context body).runFrom world = (outcome, { inner with contexts := inner.contexts.tail }) ∨
      ∃ fault contexts, (withContext context body).runFrom world = (.error (.fault fault), { inner with contexts }) := by
  rcases hbody : body.runFrom { world with contexts := context :: world.contexts } with ⟨outcome, inner⟩
  by_cases hlength : inner.contexts.length = world.contexts.length + 1
  · exact .inl (runFrom_withContext_of_length_eq hbody hlength)
  · have hleave := @runFrom_leave_of_length_ne σ inner ⟨world.contexts.length + 1⟩ hlength
    simp only [withContext, enter, Stateful.runFrom_bind, Stateful.runFrom_get, Stateful.runFrom_set,
      Stateful.runFrom_pure, Stateful.runFrom_attempt, hbody]
    rcases outcome with (cause | fault) | value
    · simp only [Stateful.runFrom_bind, hleave]
      exact .inr ⟨_, inner.contexts, rfl⟩
    · simp only [Functor.discard, map_const, Function.comp_apply, map_eq_pure_bind, Stateful.runFrom_bind,
        Stateful.runFrom_attempt, hleave]
      exact .inr ⟨_, inner.contexts, rfl⟩
    · simp only [Stateful.runFrom_bind, hleave]
      exact .inr ⟨_, inner.contexts, rfl⟩

/-- What ends without a fault under a context has ended so with the context
    entered. -/
theorem exists_of_withContext {context : Context} {body : Action σ α} {outcome : Except (Failure ValueError) α}
    (h : (withContext context body).runFrom world = (outcome, after))
    (hfault : ∀ fault, outcome ≠ .error (.fault fault)) :
    ∃ inner, body.runFrom { world with contexts := context :: world.contexts } = (outcome, inner) ∧
      after = { inner with contexts := inner.contexts.tail } := by
  have hcases := runFrom_withContext context body world
  rcases hbody : body.runFrom { world with contexts := context :: world.contexts } with ⟨result, inner⟩
  rw [hbody] at hcases
  rcases hcases with hrun | ⟨fault, contexts, hrun⟩
  · cases h.symm.trans hrun
    exact ⟨inner, rfl, rfl⟩
  · cases h.symm.trans hrun
    exact (hfault fault rfl).elim

/-- A definition that succeeds has started a function, run the body under the
    emitter, and ended the function with the operand that the body led to. -/
theorem exists_of_defineFunction {id : EmitterId} {function : FunctionDeclaration}
    {body : List Value → Action σ (Option Value)} {u : Unit}
    (h : (defineFunction id function body).runFrom world = (.ok u, after)) :
    ∃ parameters started operand ended,
      (onEmitter id (Emitter.startFunction function)).runFrom world = (.ok parameters, started) ∧
      (do
        let result ← body parameters
        onEmitter id (Emitter.resultOperand function result)).runFrom
          { started with contexts := .emitter id :: started.contexts } = (.ok operand, ended) ∧
      (onEmitter id (Emitter.endFunction (.ok operand))).runFrom { ended with contexts := ended.contexts.tail } =
        (.ok (), after) := by
  unfold defineFunction at h
  obtain ⟨parameters, started, hstart, h⟩ := Stateful.runFrom_bind_eq_ok.mp h
  obtain ⟨outcome, between, hbody, h⟩ := Stateful.runFrom_bind_eq_ok.mp h
  rw [Stateful.runFrom_attempt_eq_ok] at hbody
  rcases outcome with (cause | fault) | operand
  · have hsettle : (onEmitter id (Emitter.endFunction (.error (.error cause))) : Action σ Unit).runFrom between =
        (.ok u, after) := h
    rw [runFrom_onEmitter, Prod.mk.injEq] at hsettle
    obtain ⟨builder, emitter, -, h⟩ := Stateful.runFrom_bind_eq_ok.mp (Prod.ext hsettle.1 rfl)
    obtain ⟨_, emitter', -, h⟩ := Stateful.runFrom_bind_eq_ok.mp h
    obtain ⟨_, emitter'', h, -⟩ := Stateful.runFrom_bind_eq_ok.mp h
    cases h
  · cases h
  · obtain ⟨inner, hinner, rfl⟩ := exists_of_withContext hbody (by simp)
    exact ⟨parameters, started, operand, inner, hstart, hinner, h⟩

end Action

end StagedArrays
