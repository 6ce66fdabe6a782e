import StagedArrays.Proofs.Allocator.WorldOperations
import StagedArrays.Proofs.Context.Orders
import StagedArrays.Proofs.Script.Parameters
import StagedArrays.Proofs.Storage.Fits

namespace StagedArrays

open Stateful (Moves)

namespace Stateful

variable {ε τ α β : Type} {heapOf : τ → Heap} {state : τ} {post : Heap → α → Prop}

/-- An action keeps the buffers there are, and what it hands out is as said. The
    latter is said of the heap that it leaves. -/
def Hands (heapOf : τ → Heap) (action : Stateful ε τ α) (state : τ) (post : Heap → α → Prop) : Prop :=
  (heapOf state).Advances (heapOf (action.runFrom state).2) ∧
    ∀ a, (action.runFrom state).1 = .ok a → post (heapOf (action.runFrom state).2) a

namespace Hands

theorem pure {a : α} (h : post (heapOf state) a) : Hands heapOf (pure a : Stateful ε τ α) state post :=
  ⟨.refl _, fun _ heq => Except.ok.inj heq ▸ h⟩

theorem throw (failure : Failure ε) : Hands heapOf (throw failure : Stateful ε τ α) state post := ⟨.refl _, nofun⟩

theorem fail (cause : ε) : Hands heapOf (fail cause : Stateful ε τ α) state post := throw _

theorem lift {m : Type → Type} [MonadLiftT m (Except (Failure ε))] {x : m α}
    (h : ∀ a, (liftM x : Except (Failure ε) α) = .ok a → post (heapOf state) a) :
    Hands heapOf (liftM x : Stateful ε τ α) state post := ⟨.refl _, h⟩

/-- In a sequence the second part may rely on what the first has handed out,
    because buffers are never taken away. -/
theorem bind {action : Stateful ε τ α} {next : α → Stateful ε τ β} {between : Heap → α → Prop} {post : Heap → β → Prop}
    (h : Hands heapOf action state between)
    (hnext : ∀ a after, (heapOf state).Advances (heapOf after) → between (heapOf after) a →
      Hands heapOf (next a) after post) : Hands heapOf (action >>= next) state post := by
  obtain ⟨hadvances, hbetween⟩ := h
  rw [Hands, runFrom_bind]
  rcases hrun : action.runFrom state with ⟨failure | a, after⟩
  · rw [hrun] at hadvances
    exact ⟨hadvances, nofun⟩
  · rw [hrun] at hadvances hbetween
    obtain ⟨hafter, hpost⟩ := hnext a after hadvances (hbetween a rfl)
    exact ⟨hadvances.trans hafter, hpost⟩

/-- An action that hands out nothing of interest goes first. It may only keep
    the buffers there are. -/
theorem bind_moves {order : τ → τ → Prop} {action : Stateful ε τ α} {next : α → Stateful ε τ β}
    {post : Heap → β → Prop} (horder : ∀ {s t}, order s t → (heapOf s).Advances (heapOf t)) (h : Moves order action)
    (hnext : ∀ a after, (heapOf state).Advances (heapOf after) → Hands heapOf (next a) after post) :
    Hands heapOf (action >>= next) state post :=
  have hquiet : Hands heapOf action state fun _ _ => True := ⟨horder (h state), fun _ _ => trivial⟩
  hquiet.bind fun a after hadvances _ => hnext a after hadvances

/-- What computes an outcome goes first. -/
theorem lift_bind {m : Type → Type} [MonadLiftT m (Except (Failure ε))] {x : m α} {next : α → Stateful ε τ β}
    {post : Heap → β → Prop}
    (hnext : ∀ a, (liftM x : Except (Failure ε) α) = .ok a → Hands heapOf (next a) state post) :
    Hands heapOf (liftM x >>= next) state post := by
  rw [Hands, runFrom_bind, runFrom_liftM]
  cases hx : (liftM x : Except (Failure ε) α) with
  | error failure => exact ⟨.refl _, nofun⟩
  | ok a => exact hnext a hx

theorem map {action : Stateful ε τ α} {f : α → β} {before : Heap → α → Prop} {post : Heap → β → Prop}
    (h : Hands heapOf action state before) (hpost : ∀ heap a, before heap a → post heap (f a)) :
    Hands heapOf (f <$> action) state post := by
  rw [← bind_pure_comp]
  exact h.bind fun a after _ hbefore => .pure (hpost _ a hbefore)

end Hands

/-- Whatever an action starts from, its results are as said. This is for
    properties that have nothing to do with the state. -/
def Returns (action : Stateful ε τ α) (post : α → Prop) : Prop := ∀ state a, (action.runFrom state).1 = .ok a → post a

theorem Returns.pure {a : α} {post : α → Prop} (h : post a) : Returns (pure a : Stateful ε τ α) post :=
  fun _ _ heq => Except.ok.inj heq ▸ h

theorem Returns.fail (cause : ε) {post : α → Prop} : Returns (fail cause : Stateful ε τ α) post := nofun

/-- The results of a sequence are those of its last part. Of the first part
    nothing has to be known. -/
theorem Returns.bind {action : Stateful ε τ α} {next : α → Stateful ε τ β} {post : β → Prop}
    (h : ∀ a, Returns (next a) post) : Returns (action >>= next) post := by
  intro state b hb
  rw [runFrom_bind] at hb
  rcases hrun : action.runFrom state with ⟨failure | a, after⟩
  · rw [hrun] at hb
    cases hb
  · rw [hrun] at hb
    exact h a after b hb

theorem Returns.lift {m : Type → Type} [MonadLiftT m (Except (Failure ε))] {x : m α} {post : α → Prop}
    (h : ∀ a, (liftM x : Except (Failure ε) α) = .ok a → post a) : Returns (liftM x : Stateful ε τ α) post :=
  fun _ => h

end Stateful

open Stateful (Hands Returns)

namespace Layout

theorem formed_scalar : scalar.Formed := rfl

theorem formed_of_packed {extents : List Nat} {layout : Layout} (h : packed extents = .ok layout) : layout.Formed := by
  obtain ⟨_, hpacks⟩ := packed_eq_ok h
  exact hpacks.formed

/-- A layout that was made has one increment for each extent. -/
theorem formed_of_strided {extents increments : List Nat} {layout : Layout} (h : strided extents increments = .ok layout) :
    layout.Formed := by
  unfold strided at h
  split at h
  · cases h
  · next hlength =>
    cases h
    exact (not_not.mp hlength).symm

end Layout

namespace HeapM

variable {heap : Heap}

/-- A new buffer comes after those there are. It holds what it was made with. -/
theorem hands_alloc (buffer : HostBuffer) :
    Hands id (alloc buffer) heap fun after ref => ref.index < after.buffers.size ∧ after.get ref = buffer :=
  ⟨heap.advances_add buffer, fun ref h => by
    obtain rfl : (heap.add buffer).1 = ref := Except.ok.inj h
    exact ⟨by simp [alloc, Stateful.runFrom_bind, Heap.add], heap.get_add_self buffer⟩⟩

theorem hands_get_bind {α : Type} {next : Heap → HeapM α} {post : Heap → α → Prop} (h : Hands id (next heap) heap post) :
    Hands id (get >>= next) heap post := h

theorem hands_make {dtype : DType} {layout : Layout} {data : ValueData} (hformed : layout.Formed)
    (hknown : ∀ ref offset, data = .host ref offset → ref.index < heap.buffers.size) :
    Hands id (do liftM (Value.make (← get) dtype layout data) : HeapM Value) heap Value.Fits :=
  ⟨.refl _, fun _ h => Value.fits_of_make h hformed hknown⟩

/-- Host storage with a layout that it can serve is handed out, or refused. The
    buffer is taken in either case. -/
theorem hands_host (buffer : HostBuffer) {layout : Layout} (hformed : layout.Formed) :
    Hands id (host buffer layout) heap Value.Fits :=
  (hands_alloc buffer).bind fun ref after _ ⟨hlt, _⟩ =>
    hands_make hformed fun _ _ hdata => by
      cases hdata
      exact hlt

theorem hands_vector (buffer : HostBuffer) : Hands id (vector buffer) heap Value.Fits := by
  refine .lift_bind fun layout hlayout => (hands_alloc buffer).bind fun ref after _ ⟨hlt, hget⟩ => .pure ?_
  dsimp only [id] at hlt hget ⊢
  obtain ⟨size, hpacks⟩ := Layout.packed_eq_ok (liftM_fault_eq_ok_iff.mp hlayout)
  have hsize : size = buffer.length := by
    rw [Layout.size_eq_prod hpacks.increments_eq, List.prod_singleton]
  have hmade : Value.make after buffer.dtype layout (.host ref 0) = .ok ⟨buffer.dtype, layout, .host ref 0⟩ := by
    have hbound := hpacks.lt_bound
    rw [Value.make_host_eq_ok, hget]
    exact ⟨rfl, ⟨size, hpacks.memorySize_eq, by omega, by omega⟩, rfl⟩
  refine Value.fits_of_make hmade hpacks.formed fun _ _ hdata => ?_
  cases hdata
  exact hlt

end HeapM

namespace Direct

variable {heap : Heap} {value : Value}

theorem hands_allocate (dtype : DType) {layout : Layout} (hformed : layout.Formed) :
    Hands id (allocate dtype layout) heap Value.Fits :=
  .lift_bind fun _ _ => .lift_bind fun _ _ => HeapM.hands_host _ hformed

/-- An element of a value lies within the storage of the value. If a coordinate
    is out of bounds there is no element. -/
theorem hands_element (h : value.Fits heap) (coordinates : List Scalar) :
    Hands id (element value coordinates) heap Value.Fits := by
  refine .lift_bind fun _ _ => .bind_moves id (moves_readIndices coordinates) fun indices after hadvances => ?_
  have hafter := h.advance hadvances
  split
  · next ref offset hdata =>
    refine .lift_bind fun place _ => .lift_bind fun total _ => HeapM.hands_make rfl fun _ _ hsame => ?_
    cases hsame
    exact hafter.known ref offset hdata
  · exact .pure hafter
  · exact .fail _
  · exact .fail _

theorem hands_load (value : Value) : Hands id (load value) heap Value.Fits :=
  .bind_moves id (moves_read value) fun x after _ => .pure (Value.fits_constant after x)

theorem hands_binary (op : BinaryOp) (a b : Value) : Hands id (binary op a b) heap Value.Fits :=
  .bind_moves id (moves_read a) fun _ _ _ => .bind_moves id (moves_read b) fun _ after _ =>
    .lift_bind fun z _ => .pure (Value.fits_constant after z)

/-- A host function may do to the buffers whatever keeps their types and
    lengths. -/
theorem hands_call {function : FunctionDeclaration} (h : ∀ definition, function.hostDefinition = some definition →
    ∀ args, Moves Heap.Advances (definition args)) (args : List Value) :
    Hands id (call function args) heap fun after result => ∀ v ∈ result, v.Fits after := by
  unfold call
  split
  · exact .fail _
  · next definition hdefinition =>
    refine .lift_bind fun hostArgs _ => .bind_moves id (h definition hdefinition hostArgs) fun result after _ => .pure ?_
    intro v hv
    obtain ⟨x, -, rfl⟩ := Option.map_eq_some_iff.mp hv
    exact Value.fits_constant _ x

end Direct

namespace Emit

variable {heap : Heap} {value : Value}

theorem fits_valueOf (heap : Heap) (dtype : DType) (operand : Operand) : (valueOf dtype operand).Fits heap := by
  cases operand with
  | constant x => exact Value.fits_constant heap x
  | register id => exact Value.fits_register heap dtype id

/-- Storage that is recorded fits whatever the heap holds. It is none of the
    host. -/
theorem returns_allocate (dtype : DType) {layout : Layout} (hformed : layout.Formed) :
    Returns (allocate dtype layout) (Value.Fits heap) := by
  refine .bind fun emitter => .bind fun builder => ?_
  dsimp only
  split
  · exact .fail _
  · refine .bind fun used => .bind fun length => .bind fun requested => .bind fun needed => ?_
    split
    · exact .fail _
    · exact .bind fun _ => .pure (Value.fits_buffer heap dtype hformed _ _)

/-- The same for an element that is recorded. -/
theorem returns_element (h : value.Fits heap) (coordinates : List Scalar) :
    Returns (element value coordinates) (Value.Fits heap) := by
  refine .bind fun _ => ?_
  split
  · exact .bind fun place => .pure (Value.fits_buffer heap _ Layout.formed_scalar _ _)
  · exact .pure h
  · exact .pure h
  · exact .fail _

theorem returns_load (value : Value) : Returns (load value) (Value.Fits heap) :=
  .bind fun operand => .pure (fits_valueOf heap _ operand)

theorem returns_binary (op : BinaryOp) (a b : Value) : Returns (binary op a b) (Value.Fits heap) :=
  .bind fun _ => .bind fun _ => .bind fun _ => .bind fun operand => .pure (fits_valueOf heap _ operand)

/-- What a recorded call returns is a register, and lies within storage
    trivially. -/
theorem returns_call (function : FunctionDeclaration) (args : List Value) :
    Returns (call function args) fun result => ∀ v ∈ result, v.Fits heap := by
  refine .bind fun emitter => .bind fun arguments => ?_
  split
  · next type _ =>
    refine .bind fun output => .pure fun v hv => ?_
    obtain rfl := Option.mem_some.mp hv
    exact Value.fits_register heap _ output
  · exact .bind fun builder => .bind fun _ => .pure nofun

end Emit

namespace FunctionBuilder

variable {heap : Heap}

/-- Parameters are registers or whole buffers. Neither depends on what the heap
    holds. -/
theorem fits_of_bindParameters {types : List ValueType} (hformed : ∀ type ∈ types, type.layout.Formed) {index : Nat}
    {builder after : FunctionBuilder} {values : List Value}
    (h : bindParameters index types builder = .ok (values, after)) : ∀ v ∈ values, v.Fits heap := by
  induction types generalizing index builder values with
  | nil =>
    cases h
    exact nofun
  | cons type types ih =>
    obtain ⟨first, next, rest, hbinds, hrest, rfl⟩ := exists_binds h
    have hfirst : first.Fits heap := by
      cases hbinds with
      | register => exact Value.fits_register heap _ _
      | buffer => exact Value.fits_buffer heap _ (hformed type List.mem_cons_self) _ _
    intro v hv
    rcases List.mem_cons.mp hv with rfl | hv
    · exact hfirst
    · exact ih (fun type htype => hformed type (List.mem_cons_of_mem _ htype)) hrest v hv

end FunctionBuilder

/-- Parameters lie within their storage, for they are registers or buffers of
    the function. -/
theorem Emitter.returns_startFunction {heap : Heap} {function : FunctionDeclaration}
    (hformed : ∀ type ∈ function.parameters, type.layout.Formed) :
    Returns (startFunction function) fun parameters => ∀ v ∈ parameters, v.Fits heap := by
  refine .bind fun emitter => ?_
  dsimp only
  split
  · exact .fail _
  · intro state parameters h
    obtain ⟨⟨found, builder⟩, _, hstart, h⟩ := Stateful.runFrom_bind_eq_ok.mp (Prod.ext h rfl)
    rw [Stateful.runFrom_liftM, Prod.mk.injEq] at hstart
    obtain ⟨_, _, -, h⟩ := Stateful.runFrom_bind_eq_ok.mp h
    cases h
    exact FunctionBuilder.fits_of_bindParameters hformed hstart.1

namespace Action

variable {σ α : Type} {world : World σ} {post : Heap → α → Prop}

theorem hands_onHeap {action : HeapM α} (h : Hands id action world.heap post) :
    Hands World.heap (onHeap action : Action σ α) world post := h

/-- Emitters have no part in host storage. -/
theorem hands_onEmitter (id : EmitterId) {action : EmitterM α} (h : Returns action (post world.heap)) :
    Hands World.heap (onEmitter id action : Action σ α) world post := ⟨.refl _, h _⟩

end Action

namespace Context

variable {σ : Type} {world : World σ} {value : Value}

theorem hands_allocate (context : Context) (dtype : DType) {layout : Layout} (hformed : layout.Formed) :
    Hands World.heap (context.allocate dtype layout : Action σ Value) world Value.Fits := by
  cases context with
  | compute => exact Action.hands_onHeap (Direct.hands_allocate dtype hformed)
  | emitter id => exact Action.hands_onEmitter id (Emit.returns_allocate dtype hformed)

theorem hands_element (context : Context) (h : value.Fits world.heap) (coordinates : List Scalar) :
    Hands World.heap (context.element value coordinates : Action σ Value) world Value.Fits := by
  cases context with
  | compute => exact Action.hands_onHeap (Direct.hands_element h coordinates)
  | emitter id => exact Action.hands_onEmitter id (Emit.returns_element h coordinates)

theorem hands_load (context : Context) (value : Value) :
    Hands World.heap (context.load value : Action σ Value) world Value.Fits := by
  cases context with
  | compute => exact Action.hands_onHeap (Direct.hands_load value)
  | emitter id => exact Action.hands_onEmitter id (Emit.returns_load value)

theorem hands_binary (context : Context) (op : BinaryOp) (a b : Value) :
    Hands World.heap (context.binary op a b : Action σ Value) world Value.Fits := by
  cases context with
  | compute => exact Action.hands_onHeap (Direct.hands_binary op a b)
  | emitter id => exact Action.hands_onEmitter id (Emit.returns_binary op a b)

theorem hands_call (context : Context) {function : FunctionDeclaration}
    (h : ∀ definition, function.hostDefinition = some definition → ∀ args, Moves Heap.Advances (definition args))
    (args : List Value) :
    Hands World.heap (context.call function args : Action σ (Option Value)) world
      fun heap result => ∀ v ∈ result, v.Fits heap := by
  cases context with
  | compute => exact Action.hands_onHeap (Direct.hands_call h args)
  | emitter id => exact Action.hands_onEmitter id (Emit.returns_call function args)

/-- No operation takes a buffer away. Buffers keep their types and lengths
    too. -/
theorem follows_advances : Context.Follows (@World.Advances σ) where
  element := moves_element
  load := moves_load
  store := moves_store
  binary := moves_binary
  openLoops id extents := Action.moves_onEmitter (Emit.moves_openLoops extents).advances id
  closeLoops id registers extents := Action.moves_onEmitter (Emit.moves_closeLoops registers extents).advances id

end Context

end StagedArrays
