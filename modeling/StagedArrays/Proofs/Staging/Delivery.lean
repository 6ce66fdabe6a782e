import StagedArrays.Graph.Basic
import StagedArrays.Proofs.Algebra.Copying
import StagedArrays.Proofs.Graph.Evaluation
import StagedArrays.Proofs.Staging.Slots

namespace StagedArrays

open Stateful (Joint)

/-- The values lie in different buffers. -/
def Value.Apart (value other : Value) : Prop := value.host?.map Prod.fst ≠ other.host?.map Prod.fst

instance (value other : Value) : Decidable (value.Apart other) := inferInstanceAs (Decidable (_ ≠ _))

/-- Values that are apart lie in different buffers. Different parts of one
    buffer do not count as apart here. -/
theorem Value.Apart.ref_ne {value other : Value} (h : value.Apart other) {ref ref' : HostRef} {offset offset' : Nat}
    (hdata : value.data = .host ref offset) (hdata' : other.data = .host ref' offset') : ref ≠ ref' := by
  rintro rfl
  rw [Apart, host?, host?, hdata, hdata'] at h
  exact h rfl

namespace Graph

/-- Copies the results of nodes to the outputs that they are named with. A node
    without a result is passed over. -/
def deliver {σ : Type} (results : List (NodeId × Variable)) : List (NodeId × Value) → Action σ Unit
  | [] => pure ()
  | (id, output) :: rest => do
    (results.lookup id).forM fun result => Elementwise.copyInto output result.value
    deliver results rest

/-- Storage of the host that can take the result of a node, if there is one. -/
structure Takes (heap : Heap) (results : List (NodeId × Variable)) (target : NodeId × Value) : Prop where
  input : Program.Input heap target.2
  signed : Word.Signed target.2.layout.extents.prod
  fits : ∀ result, results.lookup target.1 = some result → Program.Input heap result.value ∧
    result.value.dtype = target.2.dtype ∧ result.value.layout.extents = target.2.layout.extents

variable {σ : Type} {world : World σ} {heap after : Heap} {results : List (NodeId × Variable)}
  {targets : List (NodeId × Value)} {target : NodeId × Value}

/-- A target still takes its results after other buffers have been taken. The
    results have stayed where they are. -/
theorem Takes.advance (h : Takes heap results target) (hadvances : heap.Advances after) : Takes after results target :=
  ⟨h.input.advance hadvances, h.signed, fun result hresult =>
    let ⟨hinput, hfits⟩ := h.fits result hresult
    ⟨hinput.advance hadvances, hfits⟩⟩

/-- One output takes its result, if there is one. Other storage stays as it
    is. -/
theorem exists_runFrom_copyInto (hactive : world.contexts.head? = some .compute) (htakes : Takes world.heap results target) :
    ∃ heap, ((results.lookup target.1).forM fun result => Elementwise.copyInto target.2 result.value).runFrom world =
        (.ok (), { world with heap }) ∧ world.heap.Advances heap ∧
      (∀ ref, (∀ offset, target.2.data ≠ .host ref offset) → heap.get ref = world.heap.get ref) ∧
      ∀ result, results.lookup target.1 = some result → result.value.Apart target.2 → target.2.layout.Injective →
        ∀ coordinates ∈ Layout.rowMajor target.2.layout.extents,
          target.2.peek heap coordinates = result.value.peek world.heap coordinates := by
  cases hresult : results.lookup target.1 with
  | none => exact ⟨world.heap, rfl, .refl _, fun _ _ => rfl, nofun⟩
  | some result =>
    obtain ⟨hinput, hdtype, hextents⟩ := htakes.fits result hresult
    have hfits := htakes.input.fits
    obtain ⟨ref, offset, hdata, -⟩ := htakes.input
    have hsource := hinput.fits
    obtain ⟨origin, start, horigin, -⟩ := hinput
    obtain ⟨heap, hrun, htouches, hcopied⟩ :=
      Elementwise.exists_runFrom_copyInto hactive hfits hdata hsource horigin hdtype hextents htakes.signed
    refine ⟨heap, hrun, htouches.advances, fun other hother => htouches.others other ?_, ?_⟩
    · rintro rfl
      exact hother offset hdata
    · rintro _ ⟨⟩ hapart
      exact hcopied (hapart.ref_ne horigin hdata)

/-- Results are delivered directly. Outputs that are apart from each other and
    from the results end up with the elements of their results. -/
theorem exists_runFrom_deliver (hactive : world.contexts.head? = some .compute)
    (htakes : ∀ target ∈ targets, Takes world.heap results target) :
    ∃ heap, (deliver results targets).runFrom world = (.ok (), { world with heap }) ∧ world.heap.Advances heap ∧
      (∀ ref, (∀ target ∈ targets, ∀ offset, target.2.data ≠ .host ref offset) → heap.get ref = world.heap.get ref) ∧
      (targets.Pairwise (fun target other => target.2.Apart other.2) →
        (∀ id result, results.lookup id = some result → ∀ target ∈ targets, result.value.Apart target.2) →
        ∀ target ∈ targets, ∀ result, results.lookup target.1 = some result → target.2.layout.Injective →
          ∀ coordinates ∈ Layout.rowMajor target.2.layout.extents,
            target.2.peek heap coordinates = result.value.peek world.heap coordinates) := by
  induction targets generalizing world with
  | nil => exact ⟨world.heap, rfl, .refl _, fun _ _ => rfl, fun _ _ _ hmem => (List.not_mem_nil hmem).elim⟩
  | cons target rest ih =>
    obtain ⟨htarget, hrest⟩ := List.forall_mem_cons.mp htakes
    obtain ⟨between, hrun, hadvances, hothers, hcopied⟩ := exists_runFrom_copyInto hactive htarget
    obtain ⟨heap, hrun', hadvances', hothers', hcopied'⟩ :=
      @ih { world with heap := between } hactive fun other hmem => (hrest other hmem).advance hadvances
    refine ⟨heap, (Stateful.runFrom_bind_of_ok hrun _).trans hrun', hadvances.trans hadvances', fun ref hnot => ?_,
      fun hapart hspared => ?_⟩
    · obtain ⟨hfirst, hnot⟩ := List.forall_mem_cons.mp hnot
      exact (hothers' ref hnot).trans (hothers ref hfirst)
    · obtain ⟨hfirst, hapart⟩ := List.pairwise_cons.mp hapart
      refine List.forall_mem_cons.mpr ⟨fun result hresult hinjective coordinates hmem => ?_,
        fun other hother result hresult hinjective coordinates hmem => ?_⟩
      · -- the outputs after it leave it alone
        have halike : target.2.Alike between heap := .of_get_eq fun ref offset hdata =>
          hothers' ref fun other hother offset' hdata' => (hfirst other hother).ref_ne hdata hdata' rfl
        rw [Value.peek_congr (htarget.input.advance hadvances).fits.sound halike]
        exact hcopied result hresult (hspared _ _ hresult _ List.mem_cons_self) hinjective coordinates hmem
      · have halike : result.value.Alike world.heap between := .of_get_eq fun ref offset hdata =>
          hothers ref fun offset' hdata' => (hspared _ _ hresult _ List.mem_cons_self).ref_ne hdata hdata' rfl
        have hsound := ((hrest other hother).fits result hresult).1.fits.sound
        rw [← Value.peek_congr hsound halike]
        exact hcopied' hapart (fun id result hresult other hother => hspared id result hresult other
          (List.mem_cons_of_mem _ hother)) other hother result hresult hinjective coordinates hmem

/-- Results that are delivered fit their outputs. -/
theorem fits_of_deliver {after : World σ} {u : Unit} (h : (deliver results targets).runFrom world = (.ok u, after)) :
    ∀ target ∈ targets, ∀ result, results.lookup target.1 = some result →
      result.value.dtype = target.2.dtype ∧ result.value.layout.extents = target.2.layout.extents := by
  induction targets generalizing world with
  | nil => exact fun _ hmem => (List.not_mem_nil hmem).elim
  | cons target rest ih =>
    obtain ⟨_, between, hrun, h⟩ := Stateful.runFrom_bind_eq_ok.mp h
    refine List.forall_mem_cons.mpr ⟨fun result hresult => ?_, ih h⟩
    rw [hresult] at hrun
    exact Elementwise.fits_of_copyInto hrun

end Graph

namespace Staging

variable {σ τ : Type} {c : Staging σ τ} {bindings : Bindings} {results results' : List (NodeId × Variable)}
  {targets targets' : List (NodeId × Value)}

/-- What an emitter delivers can be delivered directly. -/
theorem Tracks.takes {world : World σ} {world' after' : World τ} {u : Unit} (h : c.Tracks bindings world world')
    (hresults : List.Forall₂ (fun result result' => result'.1 = result.1 ∧ c.Pairs bindings result.2 result'.2) results results')
    (htargets : List.Forall₂ (fun target target' => target'.1 = target.1 ∧ bindings.Bound target.2 target'.2) targets targets')
    (hdeliver : (Graph.deliver results' targets').runFrom world' = (.ok u, after'))
    (hsigned : ∀ target ∈ targets, Word.Signed target.2.layout.extents.prod) :
    ∀ target ∈ targets, Graph.Takes world.heap results target := by
  intro target hmem
  obtain ⟨target', hmem', hid, hbound⟩ := exists_of_forall₂_of_mem htargets hmem
  refine ⟨h.inputs _ hbound.mem, hsigned target hmem, fun result hresult => ?_⟩
  have hrel := rel_lookup hresults target.1
  rw [hresult] at hrel
  cases hfound : results'.lookup target.1 with
  | none => rw [hfound] at hrel; cases hrel
  | some result' =>
    rw [hfound] at hrel
    cases hrel with
    | some hpairs =>
      obtain ⟨hdtype, hextents⟩ := Graph.fits_of_deliver hdeliver target' hmem' result' (hid ▸ hfound)
      rw [hpairs.dtype_eq, hbound.dtype_eq] at hdtype
      rw [hpairs.layout_eq, hbound.layout_eq] at hextents
      exact ⟨h.inputs _ hpairs.mem, hdtype, hextents⟩

/-- The same results are delivered in both worlds. -/
theorem joint_deliver
    (hresults : List.Forall₂ (fun result result' => result'.1 = result.1 ∧ c.Pairs bindings result.2 result'.2) results results')
    (htargets : List.Forall₂ (fun target target' => target'.1 = target.1 ∧ bindings.Bound target.2 target'.2) targets targets') :
    Joint c.Tracks (fun _ _ _ => True) bindings (Graph.deliver results targets : Action σ Unit)
      (Graph.deliver results' targets' : Action τ Unit) := by
  induction targets generalizing bindings targets' with
  | nil =>
    cases htargets
    exact .pure trivial
  | cons target targets ih =>
    obtain ⟨target', rest', ⟨hid, hbound⟩, hrest, rfl⟩ := List.forall₂_cons_left_iff.mp htargets
    have hcopy : Joint c.Tracks (fun _ _ _ => True) bindings
        ((results.lookup target.1).forM fun result => Elementwise.copyInto target.2 result.value : Action σ Unit)
        ((results'.lookup target'.1).forM fun result => Elementwise.copyInto target'.2 result.value : Action τ Unit) := by
      have hrel := rel_lookup hresults target.1
      rw [hid]
      generalize results.lookup target.1 = found, results'.lookup target.1 = found' at hrel
      cases hrel with
      | none => exact .pure trivial
      | some hresult => exact joint_copyInto hbound hresult.toBound
    exact .bind hcopy fun grown _ _ hgrown _ => ih (hresults.imp fun _ _ hresult => ⟨hresult.1, hresult.2.grow hgrown⟩)
      (hrest.imp fun _ _ htarget => ⟨htarget.1, htarget.2.grow hgrown⟩)

end Staging

end StagedArrays
