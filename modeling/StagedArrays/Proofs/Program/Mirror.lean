import StagedArrays.Proofs.Emission.Accesses
import StagedArrays.Proofs.Layout.Coordinates

namespace StagedArrays

/-- A program runs in a world of its own in place of another action. The two
    worlds differ in what the client keeps. -/
structure World.Shadows {σ : Type} (context : Context) (world : World σ) (shadow : World AccessLog) : Prop where
  heap_eq : shadow.heap = world.heap
  emitters_eq : shadow.emitters = world.emitters
  contexts_eq : shadow.contexts = world.contexts
  active : world.contexts.head? = some context

/-- A shadow is the world with another log. Everything else is shared. -/
theorem World.Shadows.eq_withClient {σ : Type} {context : Context} {world : World σ} {shadow : World AccessLog}
    (h : World.Shadows context world shadow) : shadow = world.withClient shadow.client := by
  obtain ⟨heap, emitters, contexts, client⟩ := shadow
  obtain ⟨rfl, rfl, rfl, -⟩ := h
  rfl

namespace Action

variable {σ α β : Type} {context : Context}

/-- What is done in the other world has the same outcome and leaves it the
    same. -/
def Mirrors (context : Context) (action : Action σ α) (shadow : Action AccessLog α) : Prop :=
  ∀ world world', World.Shadows context world world' → (shadow.runFrom world').1 = (action.runFrom world).1 ∧
    World.Shadows context (action.runFrom world).2 (shadow.runFrom world').2

namespace Mirrors

variable {action : Action σ α} {shadow : Action AccessLog α}

/-- Two actions that change nothing mirror each other if their outcomes agree.
    The worlds need not be looked at. -/
theorem of_eq {outcome : Except (Failure ValueError) α} (h : ∀ world, action.runFrom world = (outcome, world))
    (h' : ∀ world, shadow.runFrom world = (outcome, world)) : action.Mirrors context shadow := by
  intro world world' hshadows
  rw [h, h']
  exact ⟨rfl, hshadows⟩

theorem pure (value : α) : (pure value : Action σ α).Mirrors context (pure value) := .of_eq (fun _ => rfl) fun _ => rfl

theorem throw (failure : Failure ValueError) : (throw failure : Action σ α).Mirrors context (throw failure) :=
  .of_eq (fun _ => rfl) fun _ => rfl

theorem settle (outcome : Except (Failure ValueError) α) :
    Mirrors context (Stateful.settle outcome : Action σ α) (Stateful.settle outcome) := by
  cases outcome with
  | ok value => exact .pure value
  | error failure => exact .throw failure

/-- A sequence is mirrored by the sequence of the shadows. The rest needs a
    shadow only for results that the first part can have. -/
theorem bind_of_ok {next : α → Action σ β} {next' : α → Action AccessLog β} (h : action.Mirrors context shadow)
    (hnext : ∀ world value after, action.runFrom world = (.ok value, after) → (next value).Mirrors context (next' value)) :
    (action >>= next).Mirrors context (shadow >>= next') := by
  intro world world' hshadows
  obtain ⟨houtcome, hafter⟩ := h world world' hshadows
  rw [Stateful.runFrom_bind, Stateful.runFrom_bind]
  rcases hrun : action.runFrom world with ⟨failure | value, after⟩ <;> rw [hrun] at houtcome hafter
  · rcases hrun' : shadow.runFrom world' with ⟨outcome', after'⟩
    rw [hrun'] at houtcome hafter
    obtain rfl : outcome' = .error failure := houtcome
    exact ⟨rfl, hafter⟩
  · rcases hrun' : shadow.runFrom world' with ⟨outcome', after'⟩
    rw [hrun'] at houtcome hafter
    obtain rfl : outcome' = .ok value := houtcome
    exact hnext world value after hrun after after' hafter

theorem bind {next : α → Action σ β} {next' : α → Action AccessLog β} (h : action.Mirrors context shadow)
    (hnext : ∀ value, (next value).Mirrors context (next' value)) :
    (action >>= next).Mirrors context (shadow >>= next') := h.bind_of_ok fun _ value _ _ => hnext value

/-- An action whose outcome is caught is mirrored by its shadow with the outcome
    caught. -/
theorem attempt (h : action.Mirrors context shadow) :
    Mirrors context (Stateful.attempt action) (Stateful.attempt shadow) := by
  intro world world' hshadows
  obtain ⟨houtcome, hafter⟩ := h world world' hshadows
  rw [Stateful.runFrom_attempt, Stateful.runFrom_attempt, houtcome]
  exact ⟨rfl, hafter⟩

/-- A loop is mirrored by the loop over the shadows of its body. Both go through
    the same list. -/
theorem forM {xs : List α} {body : α → Action σ Unit} {body' : α → Action AccessLog Unit}
    (h : ∀ x ∈ xs, (body x).Mirrors context (body' x)) : (xs.forM body).Mirrors context (xs.forM body') := by
  induction xs with
  | nil => exact .pure _
  | cons x xs ih =>
    exact .bind (h x List.mem_cons_self) fun _ => ih fun y hmem => h y (List.mem_cons_of_mem _ hmem)

/-- What is done on the heap is mirrored by itself. The log has no part in
    it. -/
theorem onHeap (action : HeapM α) : (onHeap action : Action σ α).Mirrors context (onHeap action) := by
  intro world world' h
  rw [runFrom_onHeap, runFrom_onHeap, h.heap_eq]
  exact ⟨rfl, rfl, h.emitters_eq, h.contexts_eq, h.active⟩

/-- What an emitter does is mirrored by itself. Emitters are the same in a world
    and its shadow. -/
theorem onEmitter (id : EmitterId) (action : EmitterM α) :
    (onEmitter id action : Action σ α).Mirrors context (onEmitter id action) := by
  intro world world' h
  rw [runFrom_onEmitter, runFrom_onEmitter, h.emitters_eq]
  exact ⟨rfl, h.heap_eq, rfl, h.contexts_eq, h.active⟩

/-- A program asks for the active context where another action knows it. -/
theorem activeContext_bind {next : Context → Action AccessLog α} (h : action.Mirrors context (next context)) :
    action.Mirrors context (activeContext >>= next) := by
  intro world world' hshadows
  rw [Stateful.runFrom_bind_of_ok (runFrom_activeContext (hshadows.contexts_eq ▸ hshadows.active))]
  exact h world world' hshadows

/-- A program keeps a log where another action does not. The rest of the world
    is the same for both. -/
theorem note_bind (accesses : List Access) {next : Unit → Action AccessLog α} (h : action.Mirrors context (next ())) :
    action.Mirrors context (Program.note accesses >>= next) := by
  intro world world' hshadows
  exact h world _ ⟨hshadows.heap_eq, hshadows.emitters_eq, hshadows.contexts_eq, hshadows.active⟩

theorem note (accesses : List Access) : (Pure.pure () : Action σ Unit).Mirrors context (Program.note accesses) := by
  rw [← bind_pure (Program.note accesses)]
  exact .note_bind accesses (.pure ())

/-- A computation that succeeds may be left out on the other side. The value is
    known. -/
theorem lift_bind {m : Type → Type} [MonadLiftT m (Except (Failure ValueError))] {x : m β} {value : β}
    {next : β → Action AccessLog α} (hx : (liftM x : Outcome β) = .ok value) (h : action.Mirrors context (next value)) :
    action.Mirrors context (liftM x >>= next) := by
  intro world world' hshadows
  rw [Stateful.runFrom_bind, Stateful.runFrom_liftM, hx]
  exact h world world' hshadows

/-- What a loop body hands back is dropped at its end. Only what it does to the
    world is left. -/
theorem discard_bind {next : α → Action σ Unit} {next' : α → Action AccessLog β} (h : action.Mirrors context shadow)
    (hnext : ∀ value, (next value).Mirrors context (discard (next' value))) :
    (action >>= next).Mirrors context (discard (shadow >>= next')) := by
  have hdiscard : discard (shadow >>= next') = shadow >>= fun value => discard (next' value) := by
    simp only [Functor.discard, map_const, Function.comp_apply, map_bind]
  rw [hdiscard]
  exact h.bind hnext

/-- A body without a result is mirrored by one whose result is dropped. The
    world is the same. -/
theorem discard_done {action : Action σ Unit} {shadow : Action AccessLog Unit} (h : action.Mirrors context shadow)
    (value : β) : action.Mirrors context (discard (shadow >>= fun _ => Pure.pure value)) := by
  rw [← bind_pure action]
  exact .discard_bind h fun _ => .of_eq (fun _ => rfl) fun _ => rfl

end Mirrors

end Action

/-- There is one register for each loop that is opened. The outermost loop has
    the first. -/
theorem Emit.length_of_openLoops {extents : List Nat} {registers : List RegisterId} {emitter after : Emitter}
    (h : (openLoops extents).runFrom emitter = (.ok registers, after)) : registers.length = extents.length := by
  induction extents generalizing registers emitter with
  | nil =>
    cases h
    rfl
  | cons extent extents ih =>
    obtain ⟨_, _, -, h⟩ := Stateful.runFrom_bind_eq_ok.mp h
    obtain ⟨_, _, -, h⟩ := Stateful.runFrom_bind_eq_ok.mp h
    obtain ⟨rest, _, hrest, h⟩ := Stateful.runFrom_bind_eq_ok.mp h
    cases h
    rw [List.length_cons, List.length_cons, ih hrest]

namespace Context

open StagedArrays.Action (Mirrors)

variable {σ : Type} {context : Context}

/-- An allocation is mirrored by itself. It has no access to the log. -/
theorem mirrors_allocate (dtype : DType) (layout : Layout) :
    (context.allocate dtype layout : Action σ Value).Mirrors context (context.allocate dtype layout) := by
  cases context with
  | compute => exact .onHeap _
  | emitter id => exact .onEmitter id _

theorem mirrors_element (value : Value) (coordinates : List Scalar) :
    (context.element value coordinates : Action σ Value).Mirrors context (context.element value coordinates) := by
  cases context with
  | compute => exact .onHeap _
  | emitter id => exact .onEmitter id _

theorem mirrors_load (value : Value) : (context.load value : Action σ Value).Mirrors context (context.load value) := by
  cases context with
  | compute => exact .onHeap _
  | emitter id => exact .onEmitter id _

theorem mirrors_store (destination source : Value) :
    (context.store destination source : Action σ Unit).Mirrors context (context.store destination source) := by
  cases context with
  | compute => exact .onHeap _
  | emitter id => exact .onEmitter id _

theorem mirrors_binary (op : BinaryOp) (a b : Value) :
    (context.binary op a b : Action σ Value).Mirrors context (context.binary op a b) := by
  cases context with
  | compute => exact .onHeap _
  | emitter id => exact .onEmitter id _

/-- A loop does in the other world what its body does there, for as many
    coordinates as there are extents. -/
theorem mirrors_forEach {layout : Layout} {body : List Scalar → Action σ Unit} {body' : List Scalar → Action AccessLog Unit}
    (h : ∀ coordinates, coordinates.length = layout.rank → (body coordinates).Mirrors context (body' coordinates)) :
    (context.forEach layout body).Mirrors context (context.forEach layout body') := by
  cases context with
  | compute =>
    rw [forEach, forEach, Layout.forCoordinates_eq, Layout.forCoordinates_eq]
    refine .forM fun coordinates hmem => h _ ?_
    rw [List.length_map]
    exact (Layout.mem_rowMajor.mp hmem).length_eq
  | emitter id =>
    refine .bind_of_ok (.onEmitter id _) fun world registers after hopen => ?_
    have hlength : registers.length = layout.rank := by
      rw [Action.runFrom_onEmitter] at hopen
      exact Emit.length_of_openLoops (Prod.ext (Prod.mk.inj hopen).1 rfl)
    refine .bind (.attempt (h _ (by rw [List.length_map, hlength]))) fun result => ?_
    rcases result with (cause | fault) | ⟨⟩
    · exact .bind (.onEmitter id _) fun _ => .settle _
    · exact .throw _
    · exact .bind (.onEmitter id _) fun _ => .settle _

end Context

end StagedArrays
