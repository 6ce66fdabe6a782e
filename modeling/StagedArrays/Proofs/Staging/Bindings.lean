import StagedArrays.Proofs.Algebra.Copying
import StagedArrays.Proofs.Allocator.Allocation
import StagedArrays.Proofs.Emission.Parameters
import StagedArrays.Proofs.Program.Bulk
import StagedArrays.Proofs.Staging.Joint
import StagedArrays.Proofs.Storage.Handing

namespace StagedArrays

open Stateful (Joint Moves)

/-- No function is begun. -/
def World.BeginsNone {σ : Type} (world after : World σ) : Prop :=
  ∀ id, (after.emitterAt id).scope = (world.emitterAt id).scope

instance {σ : Type} : IsPreorder (World σ) World.BeginsNone where
  refl _ _ := rfl
  trans _ _ _ h h' id := (h' id).trans (h id)

namespace Context

variable {σ : Type}

/-- An operation of an emitter that keeps its function begins none. -/
theorem beginsNone_onEmitter {α : Type} {action : EmitterM α} (h : Moves Emitter.Keeps action) (id : EmitterId) :
    Moves World.BeginsNone (Action.onEmitter id action : Action σ α) := by
  intro world other
  rw [Action.runFrom_onEmitter, World.emitterAt_set]
  split
  · next heq => rw [heq.1]; exact (h _).scope_eq
  · rfl

/-- An allocation begins no function. It may declare storage for the one in
    progress. -/
theorem beginsNone_allocate (context : Context) (dtype : DType) (layout : Layout) :
    Moves World.BeginsNone (context.allocate dtype layout : Action σ Value) := by
  cases context with
  | compute => exact fun _ _ => rfl
  | emitter id => exact beginsNone_onEmitter (Emit.moves_allocate _ _) id

/-- No operation of a context begins a function. -/
theorem follows_beginsNone : Context.Follows (@World.BeginsNone σ) where
  element context _ _ := by
    cases context with
    | compute => exact fun _ _ => rfl
    | emitter id => exact beginsNone_onEmitter (Emit.moves_element _ _) id
  load context _ := by
    cases context with
    | compute => exact fun _ _ => rfl
    | emitter id => exact beginsNone_onEmitter (Emit.moves_load _) id
  store context _ _ := by
    cases context with
    | compute => exact fun _ _ => rfl
    | emitter id => exact beginsNone_onEmitter (Emit.moves_store _ _) id
  binary context _ _ _ := by
    cases context with
    | compute => exact fun _ _ => rfl
    | emitter id => exact beginsNone_onEmitter (Emit.moves_binary _ _ _) id
  openLoops id extents := beginsNone_onEmitter (Emit.moves_openLoops extents) id
  closeLoops id registers extents := beginsNone_onEmitter (Emit.moves_closeLoops registers extents) id

end Context

/-- Inputs stay inputs while buffers are written and taken. They keep their type
    and their length. -/
theorem Program.Input.advance {heap after : Heap} {value : Value} (h : Program.Input heap value)
    (hadvances : heap.Advances after) : Program.Input after value := by
  obtain ⟨ref, offset, hdata, hlt, hformed, hmake⟩ := h
  obtain ⟨hlt', hdtype, hlength⟩ := hadvances ref hlt
  exact ⟨ref, offset, hdata, hlt', hformed, (Value.make_congr hdtype hlength).trans hmake⟩

/-- Inputs lie within their storage. -/
theorem Program.Input.fits {heap : Heap} {value : Value} (h : Program.Input heap value) : value.Fits heap := by
  obtain ⟨ref, offset, hdata, hlt, hformed, hmake⟩ := h
  refine ⟨⟨hdata ▸ hmake, hformed⟩, fun other offset' hdata' => ?_⟩
  cases hdata.symm.trans hdata'
  exact hlt

/-- Host storage that a value fits into may be the input of a program. It covers
    elements that there are. -/
theorem Value.Fits.input {heap : Heap} {value : Value} {ref : HostRef} {offset : Nat} (h : value.Fits heap)
    (hdata : value.data = .host ref offset) : Program.Input heap value := by
  refine ⟨ref, offset, hdata, h.known ref offset hdata, h.sound.formed, ?_⟩
  rw [← hdata]
  exact h.sound.made

/-- Two values of one type and layout stand for each other. -/
structure Bindings.Bound (bindings : Bindings) (value double : Value) : Prop where
  mem : (value, double) ∈ bindings
  dtype_eq : double.dtype = value.dtype
  layout_eq : double.layout = value.layout

/-- The number under which operations name two values. -/
theorem Bindings.Bound.exists_lookup {bindings : Bindings} {value double : Value} (h : bindings.Bound value double) :
    ∃ index, BulkOp.lookup (bindings.map Prod.fst) index = value ∧ BulkOp.lookup (bindings.map Prod.snd) index = double := by
  obtain ⟨index, hindex⟩ := List.mem_iff_getElem?.mp h.mem
  refine ⟨index, ?_, ?_⟩ <;> simp [BulkOp.lookup, List.getD_eq_getElem?_getD, hindex]

theorem Bindings.Bound.grow {bindings grown : Bindings} {value double : Value} (h : bindings.Bound value double)
    (hgrown : bindings ⊆ grown) : grown.Bound value double := ⟨hgrown h.mem, h.dtype_eq, h.layout_eq⟩

/-- Values that are made directly in one world, and recorded by an emitter in
    another. -/
structure Staging (σ τ : Type) where
  id : EmitterId
  executing : World σ
  recording : World τ
  bindings : Bindings
  /-- Storage that no result may lie in. -/
  barred : List HostRef

namespace Staging

variable {σ τ : Type}

/-- The values of the two worlds are made by the same operations on whole
    arrays. -/
structure Tracks (c : Staging σ τ) (bindings : Bindings) (world : World σ) (world' : World τ) : Prop where
  active : world.contexts.head? = some .compute
  active' : world'.contexts.head? = some (.emitter c.id)
  scope_eq : (world'.emitterAt c.id).scope = (c.recording.emitterAt c.id).scope
  inputs : ∀ pair ∈ bindings, Program.Input world.heap pair.1
  barred_lt : ∀ ref ∈ c.barred, ref.index < world.heap.buffers.size
  performed : ∃ ops,
    (BulkOp.performAll .compute ops (c.bindings.map Prod.fst)).runFrom c.executing = (.ok (bindings.map Prod.fst), world) ∧
    (BulkOp.performAll (.emitter c.id) ops (c.bindings.map Prod.snd)).runFrom c.recording =
      (.ok (bindings.map Prod.snd), world')

/-- Two values stand for each other, and lie in storage that results may lie
    in. -/
structure Binds (c : Staging σ τ) (bindings : Bindings) (value double : Value) : Prop extends
    bindings.Bound value double where
  spared : ∀ ref offset, value.data = .host ref offset → ref ∉ c.barred

variable {c : Staging σ τ} {bindings grown : Bindings} {world after : World σ} {world' after' : World τ}
  {value double view view' destination destination' source source' : Value} {dtype : DType} {layout : Layout}

theorem Binds.grow (h : c.Binds bindings value double) (hgrown : bindings ⊆ grown) : c.Binds grown value double :=
  ⟨h.toBound.grow hgrown, h.spared⟩

/-- A further operation is carried out in both worlds. -/
theorem Tracks.perform (h : c.Tracks bindings world world') (op : BulkOp)
    (hrun : (op.perform .compute (bindings.map Prod.fst)).runFrom world = (.ok (grown.map Prod.fst), after))
    (hrun' : (op.perform (.emitter c.id) (bindings.map Prod.snd)).runFrom world' = (.ok (grown.map Prod.snd), after'))
    (hnew : ∀ pair ∈ grown, pair ∈ bindings ∨ Program.Input after.heap pair.1) : c.Tracks grown after after' := by
  have hstays := BulkOp.moves_perform Context.follows_stays Context.stays_allocate
    .compute (bindings.map Prod.fst) op world
  have hstays' := BulkOp.moves_perform Context.follows_stays Context.stays_allocate
    (.emitter c.id) (bindings.map Prod.snd) op world'
  have hadvances := (BulkOp.moves_perform Context.follows_advances Context.moves_allocate
    .compute (bindings.map Prod.fst) op world).heap
  have hscope := BulkOp.moves_perform Context.follows_beginsNone Context.beginsNone_allocate
    (.emitter c.id) (bindings.map Prod.snd) op world' c.id
  rw [hrun] at hstays hadvances
  rw [hrun'] at hstays' hscope
  obtain ⟨ops, hops, hops'⟩ := h.performed
  refine ⟨by rw [hstays, h.active], by rw [hstays', h.active'], hscope.trans h.scope_eq, fun pair hmem => ?_,
    fun ref hmem => (hadvances ref (h.barred_lt ref hmem)).1, ops ++ [op], ?_, ?_⟩
  · exact (hnew pair hmem).elim (fun hmem => (h.inputs pair hmem).advance hadvances) fun hinput => hinput
  · rw [BulkOp.performAll_append, Stateful.runFrom_bind_of_ok hops]
    exact Stateful.runFrom_bind_of_ok hrun _
  · rw [BulkOp.performAll_append, Stateful.runFrom_bind_of_ok hops']
    exact Stateful.runFrom_bind_of_ok hrun' _

/-- Fresh storage in both worlds. -/
theorem Tracks.allocate (h : c.Tracks bindings world world') {needed : Nat} (hformed : layout.Formed)
    (hneeded : layout.memorySize = .ok needed)
    (hrun : (Context.compute.allocate dtype layout).runFrom world = (.ok value, after))
    (hrun' : ((Context.emitter c.id).allocate dtype layout).runFrom world' = (.ok double, after')) :
    c.Tracks (bindings ++ [(value, double)]) after after' ∧ c.Binds (bindings ++ [(value, double)]) value double := by
  have hfits := (Context.hands_allocate .compute dtype hformed).2 value (congrArg Prod.fst hrun)
  rw [hrun] at hfits
  have hroom : dtype.reserve needed = .ok () := by
    rw [Context.allocate, Action.runFrom_onHeap] at hrun
    have hroom := Direct.reserve_of_allocate (Prod.ext (Prod.mk.inj hrun).1 rfl)
    rwa [hneeded, ok_bind] at hroom
  have hdirect := @Direct.runFrom_allocate world.heap dtype layout needed hneeded hroom
  obtain ⟨rfl, -⟩ : value = ⟨dtype, layout, .host ⟨world.heap.buffers.size⟩ 0⟩ ∧ True := by
    rw [Context.allocate, Action.runFrom_onHeap, hdirect] at hrun
    cases hrun
    exact ⟨rfl, trivial⟩
  obtain ⟨index, rfl⟩ : ∃ index, double = .emittedBuffer dtype layout index := by
    rw [Context.allocate, Action.runFrom_onEmitter, Prod.mk.injEq] at hrun'
    obtain ⟨builder, -, hvalue, -⟩ := Emit.allocate_eq_ok hneeded (Prod.ext hrun'.1 rfl)
    exact ⟨_, hvalue⟩
  refine ⟨h.perform (.allocate dtype ⟨layout, hformed⟩) ?_ ?_ fun pair hmem => ?_,
    ⟨List.mem_append_right _ List.mem_cons_self, rfl, rfl⟩, ?_⟩
  · rw [BulkOp.perform, Stateful.runFrom_bind_of_ok hrun, List.map_append]
    rfl
  · rw [BulkOp.perform, Stateful.runFrom_bind_of_ok hrun', List.map_append]
    rfl
  · rcases List.mem_append.mp hmem with hmem | hmem
    · exact .inl hmem
    · obtain rfl := List.mem_singleton.mp hmem
      exact .inr (hfits.input rfl)
  · rintro ref offset hdata hmem
    cases hdata
    exact Nat.lt_irrefl _ (h.barred_lt _ hmem)

/-- The same view of two values. -/
theorem Tracks.withLayout (h : c.Tracks bindings world world') (hbinds : c.Binds bindings value double)
    (hformed : layout.Formed) (hview : value.withLayout world.heap layout = .ok view)
    (hview' : double.withLayout world'.heap layout = .ok view') :
    c.Tracks (bindings ++ [(view, view')]) world world' ∧ c.Binds (bindings ++ [(view, view')]) view view' := by
  have hinput := h.inputs _ hbinds.mem
  obtain ⟨index, hlookup, hlookup'⟩ := hbinds.exists_lookup
  have hfits := hinput.fits.withLayout hformed hview
  obtain ⟨ref, offset, hdata, -⟩ := hinput
  obtain rfl := (Value.eq_of_withLayout hview).1
  obtain rfl := (Value.eq_of_withLayout hview').1
  refine ⟨h.perform (.view index ⟨layout, hformed⟩) ?_ ?_ fun pair hmem => ?_,
    ⟨List.mem_append_right _ List.mem_cons_self, hbinds.dtype_eq, rfl⟩, hbinds.spared⟩
  · simp only [BulkOp.perform, hlookup, Stateful.runFrom_bind, Action.runFrom_onHeap, Stateful.runFrom_get,
      Stateful.runFrom_liftM, liftM_self, hview, Stateful.runFrom_pure, List.map_append, List.map_cons, List.map_nil]
  · simp only [BulkOp.perform, hlookup', Stateful.runFrom_bind, Action.runFrom_onHeap, Stateful.runFrom_get,
      Stateful.runFrom_liftM, liftM_self, hview', Stateful.runFrom_pure, List.map_append, List.map_cons, List.map_nil]
  · rcases List.mem_append.mp hmem with hmem | hmem
    · exact .inl hmem
    · obtain rfl := List.mem_singleton.mp hmem
      exact .inr (hfits.input hdata)

/-- The same copy in both worlds. -/
theorem joint_copyInto (hdestination : bindings.Bound destination destination') (hsource : bindings.Bound source source') :
    Joint c.Tracks (fun _ _ _ => True) bindings (Elementwise.copyInto destination source : Action σ Unit)
      (Elementwise.copyInto destination' source' : Action τ Unit) := by
  intro world world' _ _ after after' h hrun hrun'
  obtain ⟨target, htarget, htarget'⟩ := hdestination.exists_lookup
  obtain ⟨index, hlookup, hlookup'⟩ := hsource.exists_lookup
  have hformed := (h.inputs _ hsource.mem).fits.sound.formed
  have hloop := Elementwise.runFrom_copyInto_eq_ok h.active hrun
  have hloop' := Elementwise.runFrom_copyInto_eq_ok h.active' hrun'
  rw [hsource.layout_eq] at hloop'
  refine ⟨bindings, List.Subset.refl _, h.perform (.copy ⟨source.layout, hformed⟩ target index) ?_ ?_ fun _ => .inl, trivial⟩
  · rw [BulkOp.perform, htarget, hlookup, Stateful.runFrom_bind_of_ok hloop]
    rfl
  · rw [BulkOp.perform, htarget', hlookup', Stateful.runFrom_bind_of_ok hloop']
    rfl

/-- The same update in both worlds. -/
theorem joint_assignBinary (op : BinaryOp) (hdestination : bindings.Bound destination destination')
    (hsource : bindings.Bound source source') :
    Joint c.Tracks (fun _ _ _ => True) bindings (Elementwise.assignBinary op destination source : Action σ Unit)
      (Elementwise.assignBinary op destination' source' : Action τ Unit) := by
  intro world world' _ _ after after' h hrun hrun'
  obtain ⟨target, htarget, htarget'⟩ := hdestination.exists_lookup
  obtain ⟨index, hlookup, hlookup'⟩ := hsource.exists_lookup
  have hformed := (h.inputs _ hdestination.mem).fits.sound.formed
  have hloop := Elementwise.runFrom_assignBinary_eq_ok h.active hrun
  have hloop' := Elementwise.runFrom_assignBinary_eq_ok h.active' hrun'
  rw [hdestination.layout_eq, Value.rank, hsource.layout_eq, ← Value.rank] at hloop'
  refine ⟨bindings, List.Subset.refl _,
    h.perform (.update op ⟨destination.layout, hformed⟩ (decide (source.rank = 0)) target index) ?_ ?_ fun _ => .inl, trivial⟩
  · rw [BulkOp.perform, htarget, hlookup, Stateful.runFrom_bind_of_ok hloop]
    rfl
  · rw [BulkOp.perform, htarget', hlookup', Stateful.runFrom_bind_of_ok hloop']
    rfl

end Staging

end StagedArrays
