import StagedArrays.Proofs.Algebra.Comparing

namespace StagedArrays

open Stateful (Ends Moves)

variable {σ : Type} {world : World σ} {context : Context} {failure : Failure ValueError}

namespace Stateful

/-- A run fails, and for the expected reason where a condition holds. Without
    the condition it may fail for another one. -/
def FailsWith {ε σ α : Type} (failure : Failure ε) (condition : Prop) (run : Except (Failure ε) α × σ) : Prop :=
  ∃ cause, run.1 = .error cause ∧ (condition → cause = failure)

namespace FailsWith

variable {ε σ α β : Type} {failure : Failure ε} {condition : Prop} {action : Stateful ε σ α}
  {next : α → Stateful ε σ β} {state : σ}

/-- What fails goes on failing for the same reason, whatever was to come after
    it. -/
theorem bind_of_fails (h : FailsWith failure condition (action.runFrom state)) :
    FailsWith failure condition ((action >>= next).runFrom state) := by
  obtain ⟨cause, hcause, hfailure⟩ := h
  rw [runFrom_bind]
  rcases hrun : action.runFrom state with ⟨found | a, after⟩
  all_goals
    rw [hrun] at hcause
    cases hcause
  exact ⟨cause, rfl, hfailure⟩

/-- What goes first succeeds where the condition holds, and the rest fails. What
    goes first may also fail otherwise, and then for its own reason. -/
theorem bind (hok : condition → ∃ a, (action.runFrom state).1 = .ok a)
    (h : ∀ a after, action.runFrom state = (.ok a, after) → FailsWith failure condition ((next a).runFrom after)) :
    FailsWith failure condition ((action >>= next).runFrom state) := by
  rw [runFrom_bind]
  rcases hrun : action.runFrom state with ⟨cause | a, after⟩
  · refine ⟨cause, rfl, fun hcondition => ?_⟩
    obtain ⟨a, ha⟩ := hok hcondition
    rw [hrun] at ha
    cases ha
  · exact h a after hrun

theorem imp {condition' : Prop} {run : Except (Failure ε) α × σ} (h : FailsWith failure condition run)
    (hcondition : condition' → condition) : FailsWith failure condition' run := by
  obtain ⟨cause, hcause, hfailure⟩ := h
  exact ⟨cause, hcause, fun h => hfailure (hcondition h)⟩

end FailsWith

end Stateful

open Stateful (FailsWith)

theorem Numeric.binary_of_dtype_ne {x y : Numeric} (op : BinaryOp) (h : y.dtype ≠ x.dtype) :
    x.binary op y = .error (.typeMismatch x.dtype y.dtype) := by
  cases x <;> cases y <;> first | rfl | exact (h rfl).elim

namespace Context

variable {condition : Prop} {extent : Nat} {layout : Layout} {body : List Scalar → Action σ Unit}

/-- The index that the first pass of a loop is given: zero on the host if there
    is a pass, and a register under an emitter. -/
def FirstIndex (extent : Nat) : Context → Scalar → Prop
  | compute, index => 0 < extent ∧ index = .ofIndex 0
  | emitter _, index => ∃ id, index = .ofRegister .i64 id

/-- A loop fails as its first pass does, if there is one. Under an emitter there
    always is one, to be recorded. -/
theorem failsWith_forEach (hextents : layout.extents = [extent]) (hcontext : world.contexts.head? = some context)
    (hready : context.Ready world) (hpasses : ¬(context = .compute ∧ extent = 0))
    (hends : ∀ coordinates (world : World σ),
      Ends (fun _ => world.Keeps) (fun _ => world.Keeps) True ((body coordinates).runFrom world))
    (hbody : ∀ index (after : World σ), context.FirstIndex extent index → after.contexts.head? = some context →
      after.heap = world.heap → context.Ready after → FailsWith failure condition ((body [index]).runFrom after)) :
    FailsWith failure condition ((context.forEach layout body).runFrom world) := by
  cases context with
  | compute =>
    obtain ⟨extent, rfl⟩ := Nat.exists_eq_succ_of_ne_zero fun hzero => hpasses ⟨rfl, hzero⟩
    rw [forEach, Layout.forCoordinates_eq, hextents, Stateful.forM_rowMajor_cons]
    exact (hbody (.ofIndex 0) world ⟨Nat.succ_pos extent, rfl⟩ hcontext rfl hready).bind_of_fails.bind_of_fails
  | emitter id =>
    obtain ⟨builder, hcurrent⟩ := Option.isSome_iff_exists.mp hready
    have hcoordinates : builder.loopCoordinates layout.extents.length = [.ofRegister .i64 ⟨builder.nextRegister⟩] := by
      rw [hextents]
      rfl
    have hopened : (emitter id).Ready (opened world id builder layout.extents.length) := by
      rw [Ready, emitterAt_opened hcurrent]
      rfl
    obtain ⟨cause, hcause, hfailure⟩ := hbody (.ofRegister .i64 ⟨builder.nextRegister⟩)
      (opened world id builder layout.extents.length) ⟨_, rfl⟩ hcontext rfl hopened
    rw [← hcoordinates] at hcause
    have hpass := hends (builder.loopCoordinates layout.extents.length) (opened world id builder layout.extents.length)
    rcases hrun : (body (builder.loopCoordinates layout.extents.length)).runFrom
      (opened world id builder layout.extents.length) with ⟨outcome, inner⟩
    rw [hrun] at hcause hpass
    obtain rfl : outcome = .error cause := hcause
    refine ⟨cause, ?_, hfailure⟩
    cases cause with
    | error cause =>
      obtain ⟨after, heq, -⟩ := exists_runFrom_forEach hcurrent hrun (fun _ heq => by cases heq) (hpass.error cause rfl)
      rw [heq]
    | fault fault => rw [runFrom_forEach_of_some hcurrent hrun]

end Context

namespace Direct

/-- An element of smaller rank than the value is in a buffer of its type. -/
theorem exists_host_of_element {heap after : Heap} {value item : Value} {coordinates : List Scalar}
    (h : (element value coordinates).runFrom heap = (.ok item, after)) (hrank : value.rank ≠ item.rank) :
    ∃ ref place, item.data = .host ref place ∧ (after.get ref).dtype = value.dtype := by
  obtain ⟨_, _, -, h⟩ := Stateful.runFrom_bind_eq_ok.mp h
  obtain ⟨indices, _, -, h⟩ := Stateful.runFrom_bind_eq_ok.mp h
  split at h
  · next ref offset hdata =>
    obtain ⟨_, _, -, h⟩ := Stateful.runFrom_bind_eq_ok.mp h
    obtain ⟨_, _, -, h⟩ := Stateful.runFrom_bind_eq_ok.mp h
    obtain ⟨_, _, hget, h⟩ := Stateful.runFrom_bind_eq_ok.mp h
    cases hget
    rw [Stateful.runFrom_liftM, Prod.mk.injEq] at h
    obtain ⟨hmade, rfl⟩ := h
    obtain ⟨hdtype, -, rfl⟩ := Value.make_host_eq_ok.mp hmade
    exact ⟨ref, _, rfl, hdtype⟩
  · cases h
    exact (hrank rfl).elim
  · cases h
  · cases h

end Direct

namespace Emit

/-- The element at an induction register is always recorded. Nothing about a
    register is known while recording. -/
theorem exists_runFrom_element {value : Value} {buffer : BufferId} {place : Operand} {extent : Nat}
    (hextents : value.layout.extents = [extent]) (hdata : value.data = .buffer buffer place) (register : RegisterId)
    {emitter : Emitter} (hcurrent : emitter.current.isSome) :
    ∃ item after, (element value [.ofRegister .i64 register]).runFrom emitter = (.ok item, after) ∧ item.rank = 0 := by
  obtain ⟨builder, hcurrent⟩ := Option.isSome_iff_exists.mp hcurrent
  rw [← Emitter.emitting_eq hcurrent]
  have hrank : value.layout.ensureRank 1 = .ok () := Layout.ensureRank_eq_ok.mpr (by rw [Layout.rank, hextents]; rfl)
  have hoffset : ∃ offset after, (offsetOperand place value.layout.extents value.layout.increments
      [.ofRegister .i64 register]).runFrom (emitter.emitting builder) = (.ok offset, after) := by
    rw [hextents]
    cases value.layout.increments with
    | nil => exact ⟨_, _, rfl⟩
    | cons increment increments => cases place <;> exact ⟨_, _, rfl⟩
  obtain ⟨offset, after, hoffset⟩ := hoffset
  refine ⟨⟨value.dtype, .scalar, .buffer buffer offset⟩, after, ?_, rfl⟩
  rw [element, Stateful.runFrom_bind, Stateful.runFrom_liftM, List.length_singleton, hrank, hdata]
  exact Stateful.runFrom_bind_of_ok hoffset _

end Emit

namespace Vector

variable {count extent : Nat} {v w : Vector} {index x y : Scalar} {after : World σ}

theorem spares_element (v : Vector) (index : Scalar) : Moves (World.Spares count) (v.element index : Action σ Scalar) :=
  .bind Action.moves_activeContext fun context => .bind (context.spares_element _ _) fun _ => .lift _

/-- To find an element of a vector spares all buffers. It may record something,
    but stores nothing. -/
theorem spares_of_element (h : (v.element index).runFrom world = (.ok x, after)) (count : Nat) :
    world.Spares count after := by
  have hspares : world.Spares count ((v.element index).runFrom world).2 := spares_element v index world
  rwa [h] at hspares

/-- An element can only be taken if some context is active. Whatever comes after
    it may rely on this. -/
theorem exists_context_of_element (h : (v.element index).runFrom world = (.ok x, after)) :
    ∃ context, world.contexts.head? = some context := by
  obtain ⟨_, _, hactive, -⟩ := Stateful.runFrom_bind_eq_ok.mp h
  rw [Action.activeContext, Stateful.runFrom_bind, Stateful.runFrom_get] at hactive
  dsimp only at hactive
  split at hactive
  · next context _ hcontexts => exact ⟨context, by rw [hcontexts]; rfl⟩
  · cases hactive

/-- An element of a vector is an element of its value. The active context finds
    it. -/
theorem runFrom_element (hcontext : world.contexts.head? = some context) (v : Vector) (index : Scalar) :
    (v.element index).runFrom world = (context.element v.value [index] >>= fun item =>
      (liftM (Scalar.ofValue item) : Action σ Scalar)).runFrom world := by
  rw [element, Stateful.runFrom_bind_of_ok (Action.runFrom_activeContext hcontext)]

/-- An element is of the type of the vector. -/
theorem dtype_of_element (h : (v.element index).runFrom world = (.ok x, after)) : x.dtype = v.dtype := by
  obtain ⟨context, between, -, h⟩ := Stateful.runFrom_bind_eq_ok.mp h
  obtain ⟨item, last, hitem, hx⟩ := Stateful.runFrom_bind_eq_ok.mp h
  rw [Stateful.runFrom_liftM, Prod.mk.injEq] at hx
  rw [Scalar.dtype, Scalar.ofValue_eq_ok.mp hx.1]
  exact (context.returns_view v.value [index] between item (by rw [hitem])).1

/-- What an element holds, also later, is of its type. Buffers keep their
    types. -/
theorem dtype_of_held (hcontext : world.contexts.head? = some .compute)
    (h : (v.element index).runFrom world = (.ok x, after)) {last : World σ} (hlast : ∀ count, after.Spares count last)
    {n : Numeric} (hn : x.value.held last.heap = .ok n) : n.dtype = x.dtype := by
  rw [dtype_of_element h]
  rw [runFrom_element hcontext] at h
  obtain ⟨item, between, hitem, hx⟩ := Stateful.runFrom_bind_eq_ok.mp h
  rw [Stateful.runFrom_liftM, Prod.mk.injEq] at hx
  obtain ⟨hx, rfl⟩ := hx
  obtain rfl : x.value = item := Scalar.ofValue_eq_ok.mp hx
  rw [Context.element, Action.runFrom_onHeap, Prod.mk.injEq] at hitem
  have hrank : v.value.rank ≠ x.value.rank := by
    rw [v.rank_eq, x.rank_eq]
    exact Nat.one_ne_zero
  obtain ⟨ref, place, hdata, hdtype⟩ := Direct.exists_host_of_element (Prod.ext hitem.1 rfl) hrank
  rcases Value.held_eq_ok hn with hsame | ⟨other, start, hhost, hget⟩
  · cases hdata.symm.trans hsame
  · cases hdata.symm.trans hhost
    rw [Value.dtype_of_get? hget, (hlast (ref.index + 1)).heap.get_eq ref (Nat.lt_succ_self _), ← hitem.2, hdtype]
    rfl

/-- A vector that can be used can still be used after anything that keeps the
    storage there was. -/
theorem Usable.of_keeps (h : v.Usable context world.heap) (hkeeps : world.Keeps after) : v.Usable context after.heap := by
  refine ⟨h.counted, ?_⟩
  have hthere := h.there
  cases context with
  | compute =>
    refine ⟨hthere.1.advance fun ref hlt => ?_, hthere.2⟩
    rw [hkeeps.heap.get_eq ref hlt]
    exact ⟨Nat.lt_of_lt_of_le hlt hkeeps.heap.size_le, rfl, rfl⟩
  | emitter id => exact hthere

/-- A vector that can be used has its first element. In the direct context that
    holds an immediate, and is found without a change. -/
theorem Usable.exists_element (h : v.Usable context world.heap) (hcontext : world.contexts.head? = some context)
    (hready : context.Ready world) (hextents : v.value.layout.extents = [extent])
    (hindex : context.FirstIndex extent index) :
    ∃ x after, (v.element index).runFrom world = (.ok x, after) ∧
      (context = .compute → after = world ∧ ∃ n, x.value.held world.heap = .ok n) := by
  rw [runFrom_element hcontext]
  cases context with
  | compute =>
    obtain ⟨hlt, rfl⟩ := hindex
    obtain ⟨hfits, hhost⟩ := h.there
    obtain ⟨⟨ref, offset⟩, hdata⟩ := Option.isSome_iff_exists.mp hhost
    rw [Value.host?_eq_some] at hdata
    have hin : Layout.InBounds [0] v.value.layout.extents := by
      rw [hextents]
      exact .cons hlt .nil
    have hitem := Value.elementAt_host hfits.sound hdata rfl hin
    obtain ⟨n, hn, -⟩ := hfits.sound.exists_peek hdata rfl hin
    rw [Value.peek, hitem, ok_bind] at hn
    have hrun := Context.runFrom_element world v.value [0]
    rw [hitem] at hrun
    refine ⟨⟨_, rfl⟩, world, ?_, fun _ => ⟨rfl, n, hn⟩⟩
    exact Stateful.runFrom_bind_of_ok hrun _
  | emitter id =>
    obtain ⟨register, rfl⟩ := hindex
    obtain ⟨buffer, place, hdata⟩ := h.there
    obtain ⟨item, after, hrun, hrank⟩ := Emit.exists_runFrom_element hextents hdata register hready
    have helement : (Context.element (.emitter id) v.value [.ofRegister .i64 register]).runFrom world =
        (.ok item, world.replaced id after) := by
      rw [Context.element, Action.runFrom_onEmitter_eq, hrun]
    refine ⟨⟨item, hrank⟩, world.replaced id after, ?_, fun hcompute => by cases hcompute⟩
    rw [Stateful.runFrom_bind_of_ok helement, Stateful.runFrom_liftM]
    exact Prod.ext (Scalar.ofValue_eq_ok.mpr rfl) rfl

/-- A loop over a vector is one over a shape of its extent. The layout of the
    vector itself does not matter. -/
theorem runFrom_forVector {body : Scalar → Action σ Unit} (hcontext : world.contexts.head? = some context)
    (hextents : v.value.layout.extents = [extent]) :
    (Action.forVector v.value body).runFrom world =
      ((liftM (Layout.packed [extent]) : Action σ Layout) >>= fun shape => context.forEach shape fun
        | [index] => body index
        | _ => pure ()).runFrom world := by
  rw [Action.forVector, hextents]
  exact Stateful.runFrom_bind_of_ok (Action.runFrom_activeContext hcontext) _

/-- A vector that can be counted has a packed shape. Its increment is one. -/
theorem packed_of_size {size : Nat} (hsize : v.size = .ok size) (hextents : v.value.layout.extents = [extent]) :
    Layout.packed [extent] = .ok ⟨[extent], [1]⟩ := by
  rw [size_eq hextents] at hsize
  simp only [Layout.packed, Layout.packedIncrements, ok_bind, hsize]
  rfl

/-- A loop over a vector fails as its first pass does, if there is one. A vector
    is gone through as its only dimension is. -/
theorem failsWith_forVector {condition : Prop} {body : Scalar → Action σ Unit}
    (hcounted : condition → ∃ size, v.size = .ok size) (hextents : v.value.layout.extents = [extent])
    (hcontext : world.contexts.head? = some context) (hready : context.Ready world)
    (hpasses : ¬(context = .compute ∧ extent = 0))
    (hends : ∀ index (world : World σ), Ends (fun _ => world.Keeps) (fun _ => world.Keeps) True ((body index).runFrom world))
    (hbody : ∀ index (after : World σ), context.FirstIndex extent index → after.contexts.head? = some context →
      after.heap = world.heap → context.Ready after → FailsWith failure condition ((body index).runFrom after)) :
    FailsWith failure condition ((Action.forVector v.value body).runFrom world) := by
  rw [runFrom_forVector hcontext hextents]
  refine .bind (fun hcondition => ?_) fun shape after hshape => ?_
  · obtain ⟨size, hsize⟩ := hcounted hcondition
    exact ⟨_, liftM_fault_eq_ok_iff.mpr (packed_of_size hsize hextents)⟩
  · rw [Stateful.runFrom_liftM, Prod.mk.injEq, liftM_fault_eq_ok_iff] at hshape
    obtain ⟨hshape, rfl⟩ := hshape
    refine Context.failsWith_forEach (Layout.extents_eq_of_packed hshape) hcontext hready hpasses ?_ hbody
    intro coordinates world
    split
    · exact hends _ world
    · exact .of_ok (.refl world)

/-- A loop over a vector spares the buffers that its body spares, wherever it
    stops. -/
theorem ends_forVector {body : Scalar → Action σ Unit}
    (hends : ∀ index (world : World σ), Ends (fun _ => world.Spares count) (fun _ => world.Spares count) True
      ((body index).runFrom world)) :
    Ends (fun _ => world.Spares count) (fun _ => world.Spares count) True ((Action.forVector v.value body).runFrom world) := by
  unfold Action.forVector
  split
  · refine .moves_bind (.refl world) Action.moves_activeContext fun context after hafter _ => ?_
    refine .moves_bind hafter (.lift _) fun shape last hlast _ => ?_
    refine (context.ends_forEach fun coordinates world => ?_).mono (fun _ _ => hlast.trans) fun _ _ => hlast.trans
    split
    · exact hends _ world
    · exact .of_ok (.refl world)
  · exact .of_error (.refl world)

/-- There is nothing to do for an empty vector in the direct context. -/
theorem runFrom_forVector_of_empty {body : Scalar → Action σ Unit} (hcontext : world.contexts.head? = some .compute)
    (hextents : v.value.layout.extents = [0]) : (Action.forVector v.value body).runFrom world = (.ok (), world) := by
  have hshape : (liftM (Layout.packed [0]) : Outcome Layout) = .ok ⟨[0], [1]⟩ := rfl
  rw [runFrom_forVector hcontext hextents, Stateful.runFrom_bind, Stateful.runFrom_liftM, hshape]
  dsimp only
  rw [Context.forEach, Layout.forCoordinates_eq]
  rfl

end Vector

namespace Vector

variable {count extent : Nat} {v w : Vector} {total index : Scalar}

theorem runFrom_discard_assign {x : Scalar} (op : BinaryOp) (h : x.dtype ≠ total.dtype) :
    (discard (total.assign op x) : Action σ Unit).runFrom world =
      (.error (.error (.typeMismatch total.dtype x.dtype)), world) := by
  rw [Functor.discard, map_const, Function.comp_apply, Stateful.runFrom_map, Scalar.runFrom_assign_of_dtype_ne op h]

/-- A pass that adds elements of another type to a total fails, and leaves
    things as they are but for the element. -/
theorem failsWith_addPass (hcontext : world.contexts.head? = some context) (hready : context.Ready world)
    (hextents : v.value.layout.extents = [extent]) (hindex : context.FirstIndex extent index) (h : v.dtype ≠ total.dtype) :
    FailsWith (.error (.typeMismatch total.dtype v.dtype)) (v.Usable context world.heap)
      ((do discard (total.assign .add (← v.element index)) : Action σ Unit).runFrom world) := by
  refine .bind (fun husable => ?_) fun x after hx => ?_
  · obtain ⟨x, after, hx, -⟩ := husable.exists_element hcontext hready hextents hindex
    exact ⟨x, by rw [hx]⟩
  · have hdtype : x.dtype = v.dtype := dtype_of_element hx
    exact ⟨_, by rw [runFrom_discard_assign _ (hdtype ▸ h)], fun _ => by rw [hdtype]⟩

/-- One pass that adds an element of another type spares all buffers there were:
    it fails before it stores. -/
theorem ends_addPass (h : v.dtype ≠ total.dtype) : Ends (fun _ => world.Spares count) (fun _ => world.Spares count) True
    ((do discard (total.assign .add (← v.element index)) : Action σ Unit).runFrom world) := by
  refine .moves_bind (.refl world) (spares_element v index) fun x after hafter hx => ?_
  have hdtype : x.dtype = v.dtype := dtype_of_element hx
  rw [runFrom_discard_assign _ (hdtype ▸ h)]
  exact .of_error hafter

/-- Elements of different types are not combined. -/
theorem failsWith_combine {x y : Scalar} {after last : World σ} {condition : Prop} (hcontext : world.contexts.head? = some context)
    (hx : (v.element index).runFrom world = (.ok x, after)) (hy : (w.element index).runFrom after = (.ok y, last)) (op : BinaryOp)
    (hheld : condition → context = .compute → (∃ n, x.value.held last.heap = .ok n) ∧ ∃ n, y.value.held last.heap = .ok n)
    (h : y.dtype ≠ x.dtype) :
    FailsWith (.error (.typeMismatch x.dtype y.dtype)) condition ((Scalar.combine op x y : Action σ Scalar).runFrom last) := by
  have hafter := (spares_of_element hx 0).head? hcontext
  have hlast := (spares_of_element hy 0).head? hafter
  rw [Scalar.combine, Stateful.runFrom_bind_of_ok (Action.runFrom_activeContext hlast)]
  refine .bind_of_fails ?_
  cases context with
  | compute =>
    rw [Context.runFrom_binary]
    cases hn : x.value.held last.heap with
    | error cause =>
      refine ⟨cause, rfl, fun hcondition => ?_⟩
      obtain ⟨⟨n, hok⟩, -⟩ := hheld hcondition rfl
      rw [hn] at hok
      cases hok
    | ok n =>
      cases hm : y.value.held last.heap with
      | error cause =>
        refine ⟨cause, rfl, fun hcondition => ?_⟩
        obtain ⟨-, m, hok⟩ := hheld hcondition rfl
        rw [hm] at hok
        cases hok
      | ok m =>
        have hntype := dtype_of_held hcontext hx (spares_of_element hy) hn
        have hmtype := dtype_of_held hafter hy (fun _ => .refl last) hm
        have hne : m.dtype ≠ n.dtype := by rwa [hntype, hmtype]
        rw [ok_bind, ok_bind, Numeric.binary_of_dtype_ne op hne, hntype, hmtype]
        exact ⟨_, rfl, fun _ => rfl⟩
  | emitter id =>
    have hrun : (Emit.binary op x.value y.value).runFrom (last.emitterAt id) =
        (.error (.error (.typeMismatch x.dtype y.dtype)), last.emitterAt id) := by
      rw [Emit.binary, Stateful.runFrom_bind, Stateful.runFrom_liftM, Value.liftM_ensureDType, Value.compareTypes_of_ne h]
      rfl
    rw [Context.binary, Action.runFrom_onEmitter_eq, hrun]
    exact ⟨_, rfl, fun _ => rfl⟩

/-- The pass of an inner product. It fails where the two elements are
    multiplied, before anything is added. -/
theorem failsWith_multiplyPass (hcontext : world.contexts.head? = some context) (hready : context.Ready world)
    (hextents : v.value.layout.extents = [extent]) (hextents' : w.value.layout.extents = [extent])
    (hindex : context.FirstIndex extent index) (h : w.dtype ≠ v.dtype) :
    FailsWith (.error (.typeMismatch v.dtype w.dtype)) (v.Usable context world.heap ∧ w.Usable context world.heap)
      ((do
        let x ← v.element index
        let y ← w.element index
        discard (total.assign .add (← Scalar.combine .mul x y)) : Action σ Unit).runFrom world) := by
  refine .bind (fun ⟨husable, _⟩ => ?_) fun x after hx => .bind (fun ⟨_, husable⟩ => ?_) fun y last hy => ?_
  · obtain ⟨x, after, hx, -⟩ := husable.exists_element hcontext hready hextents hindex
    exact ⟨x, by rw [hx]⟩
  · have hkeeps : world.Keeps after := spares_of_element hx _
    obtain ⟨y, last, hy, -⟩ := (husable.of_keeps hkeeps).exists_element (hkeeps.head? hcontext) (hready.of_spares hkeeps)
      hextents' hindex
    exact ⟨y, by rw [hy]⟩
  · have hxtype : x.dtype = v.dtype := dtype_of_element hx
    have hytype : y.dtype = w.dtype := dtype_of_element hy
    rw [← hxtype, ← hytype] at h ⊢
    refine (failsWith_combine hcontext hx hy .mul (fun ⟨hv, hw⟩ hcompute => ?_) h).bind_of_fails
    obtain ⟨_, _, hx', hheld⟩ := hv.exists_element hcontext hready hextents hindex
    cases hx.symm.trans hx'
    obtain ⟨rfl, hn⟩ := hheld hcompute
    obtain ⟨_, _, hy', hheld'⟩ := hw.exists_element hcontext hready hextents' hindex
    cases hy.symm.trans hy'
    obtain ⟨rfl, hm⟩ := hheld' hcompute
    exact ⟨hn, hm⟩

/-- One pass that multiplies elements of different types spares all buffers
    there were. -/
theorem ends_multiplyPass (h : w.dtype ≠ v.dtype) :
    Ends (fun _ => world.Spares count) (fun _ => world.Spares count) True
      ((do
        let x ← v.element index
        let y ← w.element index
        discard (total.assign .add (← Scalar.combine .mul x y)) : Action σ Unit).runFrom world) := by
  refine .moves_bind (.refl world) (spares_element v index) fun x after hafter hx => ?_
  refine .moves_bind hafter (spares_element w index) fun y last hlast hy => ?_
  have hcombine : Moves (World.Spares count) (Scalar.combine .mul x y : Action σ Scalar) :=
    .bind Action.moves_activeContext fun context => .bind (context.spares_binary _ _ _) fun _ => .lift _
  refine .moves_bind hlast hcombine fun p final hfinal hp => ?_
  obtain ⟨context, hcontext⟩ := exists_context_of_element hx
  have hne : y.dtype ≠ x.dtype := by rwa [dtype_of_element hy, dtype_of_element hx]
  obtain ⟨cause, hcause, -⟩ := failsWith_combine hcontext hx hy .mul False.elim hne
  rw [hp] at hcause
  cases hcause

/-- A loop whose passes add elements of another type to a total. The first of
    them is refused. -/
theorem failsWith_addInto (hcontext : world.contexts.head? = some context) (hready : context.Ready world)
    (h : v.dtype ≠ total.dtype) (hpasses : ¬(context = .compute ∧ v.value.layout.extents = [0])) :
    FailsWith (.error (.typeMismatch total.dtype v.dtype)) (v.Usable context world.heap)
      ((v.addInto total).runFrom world) := by
  obtain ⟨extent, hextents⟩ := v.exists_extents_eq
  refine failsWith_forVector (·.counted) hextents hcontext hready (fun ⟨hcompute, hzero⟩ => hpasses ⟨hcompute, ?_⟩)
    (fun _ _ => ends_addPass h) fun index after hindex hafter hheap hready' => ?_
  · rw [hextents, hzero]
  · rw [← hheap]
    exact failsWith_addPass hafter hready' hextents hindex h

/-- Products of vectors of different types fail in the first pass, with the
    mismatch. Only a direct loop over vectors without elements has no pass; a
    recorded loop has its body recorded once even then. -/
theorem failsWith_productsInto (hcontext : world.contexts.head? = some context) (hready : context.Ready world)
    (hextents : w.value.layout.extents = v.value.layout.extents) (h : w.dtype ≠ v.dtype)
    (hpasses : ¬(context = .compute ∧ v.value.layout.extents = [0])) :
    FailsWith (.error (.typeMismatch v.dtype w.dtype)) (v.Usable context world.heap ∧ w.Usable context world.heap)
      ((v.productsInto w total).runFrom world) := by
  obtain ⟨extent, hextent⟩ := v.exists_extents_eq
  refine failsWith_forVector (·.1.counted) hextent hcontext hready (fun ⟨hcompute, hzero⟩ => hpasses ⟨hcompute, ?_⟩)
    (fun _ _ => ends_multiplyPass h) fun index after hindex hafter hheap hready' => ?_
  · rw [hextent, hzero]
  · rw [← hheap]
    exact failsWith_multiplyPass hafter hready' hextent (hextents.trans hextent) hindex h

end Vector

end StagedArrays
