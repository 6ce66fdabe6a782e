import StagedArrays.Algebra.Reduce
import StagedArrays.Proofs.Context.Orders
import StagedArrays.Proofs.Coupling
import StagedArrays.Proofs.Script.Recording
import StagedArrays.Proofs.Script.Journal
import StagedArrays.Proofs.Storage.Handing

namespace StagedArrays

open Stateful (Ends Moves Returns)

/-- Buffers numbered below a count stay as they are; others may change, and
    further ones may come. -/
structure Heap.Spares (count : Nat) (heap after : Heap) : Prop where
  size_le : heap.buffers.size ≤ after.buffers.size
  get_eq : ∀ ref : HostRef, ref.index < count → after.get ref = heap.get ref

/-- A function in progress may have got more instructions at the end of its
    innermost block, and more registers and buffers. Nothing else changes. -/
def Emitter.Continues (emitter after : Emitter) : Prop :=
  match emitter.current with
  | none => after = emitter
  | some builder => ∃ f : Fragment, after = emitter.emitting (builder.extend f)

/-- What becomes of a world while nothing is written but host buffers from a
    number on, and functions in progress. -/
structure World.Spares {σ : Type} (count : Nat) (world after : World σ) : Prop where
  contexts_eq : after.contexts = world.contexts
  client_eq : after.client = world.client
  heap : world.heap.Spares count after.heap
  emitter : ∀ id, (world.emitterAt id).Continues (after.emitterAt id)

/-- What becomes of a world in which there may be more than before, but what was
    there is as it was. -/
def World.Keeps {σ : Type} (world after : World σ) : Prop := world.Spares world.heap.buffers.size after

/-- Storage on the host is in a buffer from a number on. Operations on fresh
    storage spare all buffers below it. -/
def Value.Beyond (count : Nat) (value : Value) : Prop := ∀ ref offset, value.data = .host ref offset → count ≤ ref.index

/-- A step along an order goes first; `base` is where the steps began. -/
theorem Stateful.Ends.moves_bind {ε σ α β : Type} {order : σ → σ → Prop} [IsPreorder σ order] {action : Stateful ε σ α}
    {next : α → Stateful ε σ β} {value : β → σ → Prop} {base state : σ} (hbase : order base state) (h : Moves order action)
    (hnext : ∀ a after, order base after → action.runFrom state = (.ok a, after) →
      Ends value (fun _ => order base) True ((next a).runFrom after)) :
    Ends value (fun _ => order base) True ((action >>= next).runFrom state) := by
  have hafter := trans_of order hbase (h state)
  rw [runFrom_bind]
  rcases hrun : action.runFrom state with ⟨(cause | fault) | a, after⟩
  all_goals rw [hrun] at hafter
  · exact .of_error hafter
  · exact .of_fault trivial
  · exact hnext a after hafter hrun

/-- What every pass of a loop respects the loop respects, unless there is a
    fault. -/
theorem Stateful.Ends.forM {ε σ α : Type} {order : σ → σ → Prop} [IsPreorder σ order] {xs : List α}
    {body : α → Stateful ε σ Unit} {state : σ}
    (h : ∀ x state, Ends (fun _ => order state) (fun _ => order state) True ((body x).runFrom state)) :
    Ends (fun _ => order state) (fun _ => order state) True ((xs.forM body).runFrom state) := by
  refine .forM_of_invariant (fun x _ between hbetween => (h x between).mono ?_ ?_) (refl_of order state)
  · exact fun _ _ hafter => trans_of order hbetween hafter
  · exact fun _ _ hafter => trans_of order hbetween hafter

namespace Heap

variable {count : Nat} {heap after final : Heap}

theorem Spares.refl (heap : Heap) : heap.Spares count heap := ⟨Nat.le_refl _, fun _ _ => rfl⟩

theorem Spares.trans (h : heap.Spares count after) (h' : after.Spares count final) : heap.Spares count final :=
  ⟨Nat.le_trans h.size_le h'.size_le, fun ref hlt => (h'.get_eq ref hlt).trans (h.get_eq ref hlt)⟩

instance : IsPreorder Heap (Spares count) where
  refl := .refl
  trans _ _ _ := .trans

theorem spares_add (heap : Heap) (buffer : HostBuffer) (hle : count ≤ heap.buffers.size) :
    heap.Spares count (heap.add buffer).2 :=
  ⟨by rw [size_add]; exact Nat.le_succ _, fun _ hlt => get_add_of_lt heap buffer (Nat.lt_of_lt_of_le hlt hle)⟩

/-- A write to a later buffer spares the earlier ones. They keep all of their
    elements. -/
theorem spares_put (heap : Heap) {ref : HostRef} (buffer : HostBuffer) (hle : count ≤ ref.index) :
    heap.Spares count (heap.put ref buffer) := by
  refine ⟨Nat.le_of_eq (size_put heap ref buffer).symm, fun other hlt => get_put_of_ne heap buffer ?_⟩
  rintro rfl
  exact Nat.lt_irrefl _ (Nat.lt_of_lt_of_le hlt hle)

end Heap

namespace Emitter

variable {emitter after final : Emitter} {builder : FunctionBuilder}

theorem continues_iff (hcurrent : emitter.current = some builder) :
    emitter.Continues after ↔ ∃ f : Fragment, after = emitter.emitting (builder.extend f) := by
  rw [Continues, hcurrent]

theorem Continues.eq_of_none (h : emitter.Continues after) (hcurrent : emitter.current = none) : after = emitter := by
  rwa [Continues, hcurrent] at h

/-- A function that was in progress is so still. Nothing but the end of a
    function ends it. -/
theorem Continues.isSome (h : emitter.Continues after) (hcurrent : emitter.current.isSome) : after.current.isSome := by
  obtain ⟨builder, hcurrent⟩ := Option.isSome_iff_exists.mp hcurrent
  obtain ⟨f, rfl⟩ := (continues_iff hcurrent).mp h
  rfl

/-- Operations record pieces, which is one way for the function in progress to
    go on. -/
theorem Grows.continues (h : emitter.Grows after) : emitter.Continues after := by
  cases hcurrent : emitter.current with
  | none => rw [h.eq_of_none hcurrent, Continues, hcurrent]
  | some builder =>
    obtain ⟨f, heq, -⟩ := (grows_iff hcurrent).mp h
    exact (continues_iff hcurrent).mpr ⟨f, heq⟩

theorem Continues.refl (emitter : Emitter) : emitter.Continues emitter := (Grows.refl emitter).continues

/-- One continuation after the other is a continuation. The function in progress
    is the same throughout. -/
theorem Continues.trans (h : emitter.Continues after) (h' : after.Continues final) : emitter.Continues final := by
  cases hcurrent : emitter.current with
  | none => rwa [h.eq_of_none hcurrent] at h'
  | some builder =>
    obtain ⟨f, rfl⟩ := (continues_iff hcurrent).mp h
    obtain ⟨g, rfl⟩ := (continues_iff rfl).mp h'
    refine (continues_iff hcurrent).mpr ⟨f.append g, ?_⟩
    rw [← FunctionBuilder.extend_extend]
    rfl

end Emitter

namespace World

variable {σ : Type} {count : Nat} {world after final : World σ} {id : EmitterId}

theorem Spares.refl (world : World σ) : world.Spares count world := ⟨rfl, rfl, .refl _, fun _ => .refl _⟩

theorem Spares.trans (h : world.Spares count after) (h' : after.Spares count final) : world.Spares count final :=
  ⟨h'.contexts_eq.trans h.contexts_eq, h'.client_eq.trans h.client_eq, h.heap.trans h'.heap,
    fun id => (h.emitter id).trans (h'.emitter id)⟩

instance : IsPreorder (World σ) (Spares count) where
  refl := .refl
  trans _ _ _ := .trans

theorem Spares.head? (h : world.Spares count after) {context : Context} (hcontext : world.contexts.head? = some context) :
    after.contexts.head? = some context := by
  rw [h.contexts_eq, hcontext]

theorem spares_heap {heap : Heap} (h : world.heap.Spares count heap) : world.Spares count { world with heap } :=
  ⟨rfl, rfl, h, fun _ => .refl _⟩

theorem spares_replaced {emitter : Emitter} (h : (world.emitterAt id).Continues emitter) :
    world.Spares count (world.replaced id emitter) := by
  refine ⟨rfl, rfl, .refl _, fun other => ?_⟩
  rw [emitterAt_replaced]
  split
  · next hand =>
    rw [hand.1]
    exact h
  · exact .refl _

end World

namespace Direct

variable {count : Nat}

theorem spares_read (value : Value) : Moves (Heap.Spares count) (read value) := .of_eq fun heap => by rw [runFrom_read]

theorem spares_readIndices (coordinates : List Scalar) : Moves (Heap.Spares count) (readIndices coordinates) := by
  induction coordinates with
  | nil => exact .pure _
  | cons coordinate rest ih => exact .bind (.bind (spares_read _) fun _ => .lift _) fun _ => .bind ih fun _ => .pure _

theorem spares_element (value : Value) (coordinates : List Scalar) :
    Moves (Heap.Spares count) (element value coordinates) := by
  refine .bind (.lift _) fun _ => .bind (spares_readIndices _) fun _ => ?_
  split
  · exact .bind (.lift _) fun _ => .bind (.lift _) fun _ => .bind (.of_eq fun _ => rfl) fun _ => .lift _
  · exact .pure _
  · exact .fail _
  · exact .fail _

theorem spares_store {destination : Value} (h : destination.Beyond count) (source : Value) :
    Moves (Heap.Spares count) (store destination source) := by
  refine .bind (.lift _) fun _ => .bind (.lift _) fun _ => .bind (spares_read _) fun x => ?_
  split
  · next ref offset hdata =>
    intro heap
    simp only [HeapM.write, Stateful.runFrom_bind, HeapM.runFrom_read, Stateful.runFrom_liftM]
    cases (heap.get ref).set offset x with
    | error cause => exact .refl heap
    | ok buffer => exact heap.spares_put buffer (h ref offset hdata)
  · exact .fail _
  · exact .fail _
  · exact .fail _

theorem spares_binary (op : BinaryOp) (a b : Value) : Moves (Heap.Spares count) (binary op a b) :=
  .bind (spares_read _) fun _ => .bind (spares_read _) fun _ => .bind (.lift _) fun _ => .pure _

/-- An element of a value is in the same buffer as the value. So it is beyond
    the same buffers. -/
theorem returns_view (value : Value) (coordinates : List Scalar) :
    Returns (element value coordinates) fun item =>
      item.dtype = value.dtype ∧ ∀ count, value.Beyond count → item.Beyond count := by
  refine .bind fun _ => .bind fun _ => ?_
  split
  · next ref offset hdata =>
    refine .bind fun _ => .bind fun _ => .bind fun heap => .lift fun item hitem => ?_
    rw [Value.eq_of_make hitem]
    refine ⟨rfl, fun count hbeyond other start heq => ?_⟩
    cases heq
    exact hbeyond ref offset hdata
  · exact .pure ⟨rfl, fun _ hbeyond => hbeyond⟩
  · exact .fail _
  · exact .fail _

end Direct

namespace Emit

/-- The same for an element that is recorded. Nothing is known of its place
    here. -/
theorem returns_view (value : Value) (coordinates : List Scalar) :
    Returns (element value coordinates) fun item =>
      item.dtype = value.dtype ∧ ∀ count, value.Beyond count → item.Beyond count := by
  refine .bind fun _ => ?_
  split
  · exact .bind fun _ => .pure ⟨rfl, fun _ _ => nofun⟩
  · exact .pure ⟨rfl, fun _ hbeyond => hbeyond⟩
  · exact .pure ⟨rfl, fun _ hbeyond => hbeyond⟩
  · exact .fail _

end Emit

namespace Context

variable {σ : Type} {count : Nat} (context : Context)

theorem spares_onHeap {α : Type} {action : HeapM α} (h : Moves (Heap.Spares count) action) :
    Moves (World.Spares count) (Action.onHeap action : Action σ α) := fun world => World.spares_heap (h world.heap)

theorem spares_onEmitter {α : Type} {action : EmitterM α} (h : Moves Emitter.Grows action) (id : EmitterId) :
    Moves (World.Spares count) (Action.onEmitter id action : Action σ α) := by
  intro world
  rw [Action.runFrom_onEmitter_eq]
  exact World.spares_replaced (h _).continues

theorem spares_element (value : Value) (coordinates : List Scalar) :
    Moves (World.Spares count) (context.element value coordinates : Action σ Value) := by
  cases context with
  | compute => exact spares_onHeap (Direct.spares_element value coordinates)
  | emitter id => exact spares_onEmitter (Emit.grows_element value coordinates) id

theorem spares_load (value : Value) : Moves (World.Spares count) (context.load value : Action σ Value) := by
  cases context with
  | compute => exact spares_onHeap (.bind (Direct.spares_read value) fun _ => .pure _)
  | emitter id => exact spares_onEmitter (.bind (Emit.grows_operand value) fun _ => .pure _) id

theorem spares_store {destination : Value} (h : destination.Beyond count) (source : Value) :
    Moves (World.Spares count) (context.store destination source : Action σ Unit) := by
  cases context with
  | compute => exact spares_onHeap (Direct.spares_store h source)
  | emitter id => exact spares_onEmitter (Emit.grows_store destination source) id

theorem spares_binary (op : BinaryOp) (a b : Value) :
    Moves (World.Spares count) (context.binary op a b : Action σ Value) := by
  cases context with
  | compute => exact spares_onHeap (Direct.spares_binary op a b)
  | emitter id => exact spares_onEmitter (Emit.grows_binary op a b) id

/-- An element is of the type of the value, and in the same buffer. Reading it
    reads nothing else. -/
theorem returns_view (value : Value) (coordinates : List Scalar) :
    Returns (context.element value coordinates : Action σ Value) fun item =>
      item.dtype = value.dtype ∧ ∀ count, value.Beyond count → item.Beyond count := by
  intro world item hitem
  cases context with
  | compute => exact Direct.returns_view value coordinates world.heap item hitem
  | emitter id => exact Emit.returns_view value coordinates (world.emitterAt id) item hitem

/-- There is a function to record storage for, where storage is recorded. The
    host is always ready. -/
def Ready (world : World σ) : Context → Prop
  | compute => True
  | emitter id => (world.emitterAt id).current.isSome

/-- A context that was ready is so after what spares the earlier buffers. The
    active context has not changed. -/
theorem Ready.of_spares {context : Context} {world after : World σ} (h : Ready world context)
    (hspares : world.Spares count after) : Ready after context := by
  cases context with
  | compute => trivial
  | emitter id => exact (hspares.emitter id).isSome h

/-- Fresh storage leaves everything as it is. It is of the type and the layout
    asked for, and apart from all there was. -/
theorem ends_allocate (dtype : DType) (layout : Layout) (world : World σ) :
    Ends (fun fresh after => world.Keeps after ∧ fresh.dtype = dtype ∧ fresh.layout = layout ∧
        fresh.Beyond world.heap.buffers.size ∧ Ready after context)
      (fun _ => world.Keeps) True ((context.allocate dtype layout).runFrom world) := by
  cases context with
  | compute =>
    rw [allocate, Action.runFrom_onHeap]
    cases hsize : layout.memorySize with
    | error fault =>
      have hrun : (Direct.allocate dtype layout).runFrom world.heap = (.error (.fault fault), world.heap) := by
        rw [Direct.allocate, Stateful.runFrom_bind, Stateful.runFrom_liftM, hsize]
        rfl
      rw [hrun]
      exact .of_fault trivial
    | ok size =>
      rcases dtype.reserve_cases size with hroom | hroom
      swap
      · rw [Direct.runFrom_allocate_of_full hsize hroom]
        exact .of_fault trivial
      rw [Direct.runFrom_allocate hsize hroom]
      refine .of_ok ⟨World.spares_heap (world.heap.spares_add _ (Nat.le_refl _)), rfl, rfl, ?_, trivial⟩
      rintro _ _ ⟨⟩
      exact Nat.le_refl _
  | emitter id =>
    rw [allocate, Action.runFrom_onEmitter_eq]
    cases hcurrent : (world.emitterAt id).current with
    | none =>
      have hrun : (Emit.allocate dtype layout).runFrom (world.emitterAt id) =
          (.error (.error (.invalidArgument .noOpenFunction)), world.emitterAt id) := by
        rw [Emit.allocate, Stateful.runFrom_bind_of_ok (Stateful.runFrom_get _),
          Stateful.runFrom_bind_of_error (Emitter.runFrom_builder_of_none hcurrent)]
      rw [hrun]
      exact .of_error (World.spares_replaced (.refl _))
    | some builder =>
      obtain ⟨outcome, f, hrun, -, -, hvalue⟩ := Emit.adds_allocate (world.emitterAt id) builder dtype layout
      rw [Emitter.emitting_eq hcurrent] at hrun
      have hkeeps : world.Keeps (world.replaced id ((world.emitterAt id).emitting (builder.extend f))) :=
        World.spares_replaced ((Emitter.continues_iff hcurrent).mpr ⟨f, rfl⟩)
      rw [hrun]
      rcases outcome with (cause | fault) | value
      · exact .of_error hkeeps
      · exact .of_fault trivial
      · obtain ⟨_, -, rfl, -⟩ := hvalue value rfl
        exact .of_ok ⟨hkeeps, rfl, rfl, (fun _ _ heq => by cases heq), (hkeeps.emitter id).isSome (by rw [hcurrent]; rfl)⟩

section Loops

variable {layout : Layout} {body : List Scalar → Action σ Unit} {world : World σ} {id : EmitterId}

/-- A nest of loops ends as its body does. The body is recorded once, with all
    loops open around it. -/
theorem exists_runFrom_forEach {builder : FunctionBuilder} {outcome : Except (Failure ValueError) Unit}
    {inner : World σ} (hcurrent : (world.emitterAt id).current = some builder)
    (hbody : (body (builder.loopCoordinates layout.extents.length)).runFrom
      (opened world id builder layout.extents.length) = (outcome, inner))
    (hfault : ∀ fault, outcome ≠ .error (.fault fault))
    (hspares : (opened world id builder layout.extents.length).Spares count inner) :
    ∃ after, ((emitter id).forEach layout body).runFrom world = (outcome, after) ∧ world.Spares count after := by
  have hinner := hspares.emitter id
  rw [emitterAt_opened hcurrent] at hinner
  obtain ⟨f, hinner⟩ := (Emitter.continues_iff rfl).mp hinner
  change inner.emitterAt id = (world.emitterAt id).emitting ((builder.opened layout.extents.length).extend f) at hinner
  refine ⟨_, runFrom_forEach_of_emitting hcurrent hbody hfault hinner, hspares.contexts_eq, hspares.client_eq, hspares.heap,
    fun other => ?_⟩
  by_cases heq : other = id
  · subst heq
    rw [World.emitterAt_replaced_of_current (congrArg Emitter.current hinner)]
    exact (Emitter.continues_iff hcurrent).mpr ⟨_, rfl⟩
  · have hother := hspares.emitter other
    rwa [opened, World.emitterAt_replaced_of_ne world heq, ← World.emitterAt_replaced_of_ne inner heq] at hother

/-- While no function is in progress there are no loops to record. The body is
    run all the same if there is no dimension. -/
theorem runFrom_forEach_of_none (hcurrent : (world.emitterAt id).current = none) :
    ((emitter id).forEach layout body).runFrom world = (body []).runFrom world ∨
      ((emitter id).forEach layout body).runFrom world =
        (.error (.error (.invalidArgument .noOpenFunction)), world) := by
  rw [forEach]
  cases layout.extents with
  | nil =>
    left
    have hopen : (Action.onEmitter id (Emit.openLoops [])).runFrom world = (.ok [], world) :=
      Prod.ext rfl (world.replaced_emitterAt id)
    have hclose (after : World σ) (outcome : Except (Failure ValueError) Unit) :
        (Action.onEmitter id (Emit.closeLoops [] []) >>= fun _ => Stateful.settle outcome).runFrom after =
          (outcome, after) := by
      rw [Stateful.runFrom_bind_of_ok (Prod.ext rfl (after.replaced_emitterAt id) :
        (Action.onEmitter id (Emit.closeLoops [] [])).runFrom after = (.ok (), after)), Stateful.runFrom_settle]
    rw [Stateful.runFrom_bind_of_ok hopen, Stateful.runFrom_bind_of_ok (Stateful.runFrom_attempt _ _), List.map_nil]
    rcases (body []).runFrom world with ⟨(cause | fault) | u, after⟩
    · exact hclose after _
    · rfl
    · exact hclose after _
  | cons extent extents =>
    right
    refine Stateful.runFrom_bind_of_error ?_ _
    rw [Action.runFrom_onEmitter_eq, Emit.openLoops,
      Stateful.runFrom_bind_of_error (Emitter.runFrom_builder_of_none hcurrent), World.replaced_emitterAt]

/-- What no pass of a loop changes the loop does not change. Passes may fail,
    and then the rest is left out. -/
theorem ends_forEach (context : Context) (hbody : ∀ coordinates (world : World σ),
      Ends (fun _ => world.Spares count) (fun _ => world.Spares count) True ((body coordinates).runFrom world)) :
    Ends (fun _ => world.Spares count) (fun _ => world.Spares count) True ((context.forEach layout body).runFrom world) := by
  cases context with
  | compute =>
    rw [forEach, Layout.forCoordinates_eq]
    exact .forM fun coordinates => hbody _
  | emitter id =>
    cases hcurrent : (world.emitterAt id).current with
    | none =>
      obtain heq | heq := @runFrom_forEach_of_none _ layout body _ _ hcurrent
      · rw [heq]
        exact hbody [] world
      · rw [heq]
        exact .of_error (.refl _)
    | some builder =>
      have hends := hbody (builder.loopCoordinates layout.extents.length)
        (opened world id builder layout.extents.length)
      rcases hrun : (body (builder.loopCoordinates layout.extents.length)).runFrom
        (opened world id builder layout.extents.length) with ⟨(cause | fault) | u, inner⟩
      all_goals rw [hrun] at hends
      · obtain ⟨after, heq, hspares⟩ := exists_runFrom_forEach hcurrent hrun (fun _ heq => by cases heq) (hends.error cause rfl)
        rw [heq]
        exact .of_error hspares
      · rw [runFrom_forEach_of_some hcurrent hrun]
        exact .of_fault trivial
      · obtain ⟨after, heq, hspares⟩ := exists_runFrom_forEach hcurrent hrun (fun _ heq => by cases heq) (hends.ok u rfl)
        rw [heq]
        exact .of_ok hspares

end Loops

end Context

namespace Elementwise

variable {σ : Type} {count : Nat} {world : World σ} {context : Context} {destination : Value}

/-- One pass of a copy onto something fresh leaves all earlier buffers alone,
    wherever its source lies. -/
theorem ends_copyAt (hbeyond : destination.Beyond count) (source : Value) (coordinates : List Scalar) :
    Ends (fun _ => world.Spares count) (fun _ => world.Spares count) True
      ((copyAt context destination source coordinates).runFrom world) := by
  refine .moves_bind (.refl world) (context.spares_element source coordinates) fun item after hafter _ => ?_
  refine .moves_bind hafter (context.spares_element destination coordinates) fun target later hlater htarget => ?_
  have hview := (context.returns_view destination coordinates after target (by rw [htarget])).2 count hbeyond
  refine .moves_bind hlater (context.spares_load item) fun x final hfinal _ => ?_
  exact (Ends.of_moves (context.spares_store hview x) final).mono (fun _ _ => hfinal.trans) fun _ _ => hfinal.trans

/-- A copy onto something fresh leaves all earlier buffers alone, whether it
    succeeds, fails or breaks off. -/
theorem ends_copyInto (hbeyond : destination.Beyond count) (source : Value) :
    Ends (fun _ => world.Spares count) (fun _ => world.Spares count) True ((copyInto destination source).runFrom world) := by
  have hrest (world : World σ) : Ends (fun _ => world.Spares count) (fun _ => world.Spares count) True
      ((Action.activeContext >>= fun context =>
        context.forEach source.layout (copyAt context destination source)).runFrom world) := by
    refine .moves_bind (.refl world) Action.moves_activeContext fun context after hafter _ => ?_
    exact (context.ends_forEach fun coordinates _ => ends_copyAt hbeyond source coordinates).mono
      (fun _ _ => hafter.trans) fun _ _ => hafter.trans
  unfold copyInto
  refine .moves_bind (.refl world) (.lift _) fun _ after hafter _ => ?_
  split
  · refine .moves_bind hafter (.lift _) fun _ _ hfirst _ => .moves_bind hfirst (.lift _) fun _ _ hsecond _ => ?_
    refine .moves_bind hsecond (.throw _) fun _ last hlast _ => ?_
    exact (hrest last).mono (fun _ _ => hlast.trans) fun _ _ => hlast.trans
  · exact (hrest after).mono (fun _ _ => hafter.trans) fun _ _ => hafter.trans

/-- A copy is of the type and extents of what is copied. It is apart from all
    storage there was. -/
theorem ends_copy (hcontext : world.contexts.head? = some context) (value : Value) :
    Ends (fun fresh after => world.Keeps after ∧ fresh.dtype = value.dtype ∧ fresh.layout.extents = value.layout.extents ∧
        context.Ready after)
      (fun _ => world.Keeps) True ((copy value).runFrom world) := by
  rw [copy, Stateful.runFrom_bind_of_ok (Action.runFrom_activeContext hcontext), Stateful.runFrom_bind,
    Stateful.runFrom_liftM]
  cases hlayout : value.layout.contiguous with
  | error fault => exact .of_fault trivial
  | ok layout =>
    refine (context.ends_allocate value.dtype layout world).bind fun fresh after ⟨hkeeps, hdtype, hfresh, hbeyond, hready⟩ => ?_
    have hfilled : Ends (fun _ last => world.Keeps last ∧ context.Ready last) (fun _ => world.Keeps) True
        ((copyInto fresh value).runFrom after) :=
      (ends_copyInto hbeyond value).mono (fun _ _ hcopied => ⟨hkeeps.trans hcopied, hready.of_spares hcopied⟩)
        fun _ _ => hkeeps.trans
    refine hfilled.bind fun _ last ⟨hlast, hready⟩ => .of_ok ⟨hlast, hdtype, ?_, hready⟩
    rw [hfresh, Layout.extents_eq_of_packed hlayout]

end Elementwise

namespace Scalar

variable {σ : Type} {world : World σ} {context : Context}

/-- A scalar with storage is taken from the active context, has the type asked
    for and leaves the context ready for more. -/
theorem ends_allocate (hcontext : world.contexts.head? = some context) (dtype : DType) :
    Ends (fun fresh after => world.Keeps after ∧ fresh.dtype = dtype ∧ context.Ready after)
      (fun _ => world.Keeps) True ((allocate dtype).runFrom world) := by
  rw [allocate, Stateful.runFrom_bind_of_ok (Action.runFrom_activeContext hcontext)]
  refine (context.ends_allocate dtype .scalar world).bind fun value after hfresh => ?_
  obtain ⟨hkeeps, hdtype, hlayout, hbeyond, hready⟩ := hfresh
  have hrank : value.rank = 0 := by
    rw [Value.rank, hlayout]
    rfl
  have hscalar : (liftM (ofValue value) : Outcome Scalar) = .ok ⟨value, hrank⟩ := ofValue_eq_ok.mpr rfl
  rw [Stateful.runFrom_bind, Stateful.runFrom_liftM, hscalar]
  dsimp only
  have hzeroed : Ends (fun _ last => world.Keeps last ∧ context.Ready last) (fun _ => world.Keeps) True
      ((store ⟨value, hrank⟩ (ofNumeric (.zero dtype))).runFrom after) := by
    rw [store, Stateful.runFrom_bind_of_ok (Action.runFrom_activeContext (hkeeps.head? hcontext))]
    exact (Ends.of_moves (context.spares_store hbeyond _) after).mono
      (fun _ _ hstored => ⟨hkeeps.trans hstored, hready.of_spares hstored⟩) fun _ _ => hkeeps.trans
  exact hzeroed.bind fun _ last hlast => .of_ok ⟨hlast.1, hdtype, hlast.2⟩

end Scalar

end StagedArrays
