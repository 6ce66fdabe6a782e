import StagedArrays.Proofs.Allocator.Allocation
import StagedArrays.Proofs.Graph.Reaction

namespace StagedArrays

open Stateful (Moves)

namespace Event

/-- The node whose result was passed on. -/
def processed? : Event → Option NodeId
  | processed id _ => some id
  | _ => none

/-- The node whose result was given up. -/
def released? : Event → Option NodeId
  | released id _ => some id
  | _ => none

/-- The node whose result was kept. -/
def retained? : Event → Option NodeId
  | retained id _ => some id
  | _ => none

/-- Whether storage was asked for or given back, which says nothing about the
    nodes. -/
def onStorage : Event → Bool
  | allocated .. | freed .. => true
  | _ => false

end Event

namespace Activity

variable {σ : Type}

/-- The events from a point of the journal on. A run is described by those since
    it began. -/
def since (activity : Activity σ) (start : Nat) : List Event := activity.journal.toList.drop start

variable {activity after : Activity σ} {start : Nat}

/-- Nothing has been done but storage asked for and given back. The journal may
    have grown by events about storage. -/
structure Quiet (activity after : Activity σ) : Prop where
  maxSlots_eq : after.storage.allocator.maxSlots = activity.storage.allocator.maxSlots
  journal : ∃ events, after.journal.toList = activity.journal.toList ++ events ∧ ∀ event ∈ events, event.onStorage = true

theorem Quiet.of_journal_eq (hmax : after.storage.allocator.maxSlots = activity.storage.allocator.maxSlots)
    (hjournal : after.journal = activity.journal) : activity.Quiet after :=
  ⟨hmax, [], by rw [hjournal, List.append_nil], fun _ h => nomatch h⟩

instance : IsPreorder (Activity σ) Quiet where
  refl _ := .of_journal_eq rfl rfl
  trans _ _ _ := by
    rintro ⟨hmax, events, heq, hquiet⟩ ⟨hmax', others, heq', hquiet'⟩
    refine ⟨hmax'.trans hmax, events ++ others, by rw [heq', heq, List.append_assoc], fun event hmem => ?_⟩
    rcases List.mem_append.mp hmem with hmem | hmem
    · exact hquiet event hmem
    · exact hquiet' event hmem

/-- Of the nodes there is nothing new. This serves for each kind of event that
    nodes report. -/
theorem Quiet.since_filterMap {f : Event → Option NodeId} (h : activity.Quiet after) (hstart : start ≤ activity.journal.size)
    (hf : ∀ event, event.onStorage = true → f event = none) :
    (after.since start).filterMap f = (activity.since start).filterMap f := by
  obtain ⟨-, events, heq, hquiet⟩ := h
  have hnone : events.filterMap f = [] := List.filterMap_eq_nil_iff.mpr fun event hmem => hf event (hquiet event hmem)
  rw [since, since, heq, List.drop_append_of_le_length (by simpa using hstart), List.filterMap_append, hnone,
    List.append_nil]

/-- A journal only grows. -/
theorem Quiet.size_le (h : activity.Quiet after) : activity.journal.size ≤ after.journal.size := by
  obtain ⟨-, events, heq, -⟩ := h
  have hlength := congrArg List.length heq
  simp only [Array.length_toList, List.length_append] at hlength
  omega

end Activity

/-- A further event is the last one since any earlier point. The ones before it
    stay. -/
theorem GraphState.since_noted {ν σ : Type} {state : GraphState ν σ} {start : Nat}
    (hstart : start ≤ state.activity.journal.size) (event : Event) :
    (state.noted event).activity.since start = state.activity.since start ++ [event] := by
  rw [Activity.since, Activity.since, noted, Array.toList_push, List.drop_append_of_le_length (by simpa using hstart)]

/-- A journal that goes on is no shorter. Points of it stay valid. -/
theorem GraphState.start_le_noted {ν σ : Type} {state : GraphState ν σ} {start : Nat}
    (hstart : start ≤ state.activity.journal.size) (event : Event) : start ≤ (state.noted event).activity.journal.size := by
  rw [noted, Array.size_push]
  exact Nat.le_succ_of_le hstart

namespace ActivityM

variable {σ α : Type}

/-- What is done to storage leaves the journal alone. Errors are marked as
    errors of the allocator. -/
theorem runFrom_onStorage (action : StorageM σ α) (activity : Activity σ) :
    (onStorage action).runFrom activity =
      ((action.runFrom activity.storage).1.mapError (Failure.map .allocator),
        ⟨(action.runFrom activity.storage).2, activity.journal⟩) := by
  cases activity
  simp [onStorage]

/-- What is done to the world leaves the allocator and the journal alone. Errors
    are marked as errors of values. -/
theorem runFrom_onWorld (action : Action σ α) (activity : Activity σ) :
    (onWorld action).runFrom activity =
      ((action.runFrom activity.storage.world).1.mapError (Failure.map .value),
        ⟨⟨activity.storage.allocator, (action.runFrom activity.storage.world).2⟩, activity.journal⟩) := by
  obtain ⟨⟨allocator, world⟩, journal⟩ := activity
  simp [onWorld]

/-- The outcome of a step of the allocator goes into the journal, unless it is a
    fault. -/
theorem runFrom_noted (event : Except AllocatorError α → Event) (action : StorageM σ α) (activity : Activity σ) :
    (noted event action).runFrom activity =
      match action.runFrom activity.storage with
      | (.ok value, storage) => (.ok value, ⟨storage, activity.journal.push (event (.ok value))⟩)
      | (.error (.error cause), storage) =>
        (.error (.error (.allocator cause)), ⟨storage, activity.journal.push (event (.error cause))⟩)
      | (.error (.fault fault), storage) => (.error (.fault fault), ⟨storage, activity.journal⟩) := by
  rw [noted, Stateful.runFrom_bind, runFrom_onStorage, Stateful.runFrom_attempt]
  rcases action.runFrom activity.storage with ⟨(cause | fault) | value, storage⟩ <;> rfl

/-- Freeing a variable in full: its slot is released or the allocator refuses,
    and either way the journal says so. The world is left alone. -/
theorem runFrom_free (v : Variable) (activity : Activity σ) :
    (free v).runFrom activity = match activity.storage.allocator.release v with
      | .ok allocator => (.ok (), ⟨⟨allocator, activity.storage.world⟩, activity.journal.push (.freed v.slot (.ok ()))⟩)
      | .error cause => (.error (.error (.allocator cause)),
          ⟨activity.storage, activity.journal.push (.freed v.slot (.error cause))⟩) := by
  rw [free, runFrom_noted, StorageM.free, Stateful.runFrom_bind, Stateful.runFrom_get]
  dsimp only
  rw [Stateful.runFrom_bind, Stateful.runFrom_liftM]
  cases activity.storage.allocator.release v <;> rfl

/-- An event about storage is all that a noted action adds to the journal. The
    action itself has no access to it. -/
theorem quiet_noted {event : Except AllocatorError α → Event} (hevent : ∀ outcome, (event outcome).onStorage = true)
    {action : StorageM σ α}
    (hmax : ∀ storage, (action.runFrom storage).2.allocator.maxSlots = storage.allocator.maxSlots) :
    Moves Activity.Quiet (noted event action) := by
  intro activity
  have hsame := hmax activity.storage
  rw [runFrom_noted]
  generalize action.runFrom activity.storage = run at hsame ⊢
  have hpush (outcome : Except AllocatorError α) :
      activity.Quiet ⟨run.2, activity.journal.push (event outcome)⟩ := by
    refine ⟨hsame, [event outcome], Array.toList_push, fun found hmem => ?_⟩
    rw [List.mem_singleton.mp hmem]
    exact hevent outcome
  obtain ⟨(cause | fault) | value, storage⟩ := run
  · exact hpush (.error cause)
  · exact .of_journal_eq hsame rfl
  · exact hpush (.ok value)

/-- An allocation is told to the journal, and nothing else is. It does not
    matter whether it succeeds. -/
theorem quiet_allocate (dtype : DType) (layout : Layout) :
    Moves Activity.Quiet (allocate dtype layout : ActivityM σ Variable) := by
  refine quiet_noted (fun _ => rfl) fun storage => ?_
  have hallocates := StorageM.allocates storage dtype layout
  generalize (StorageM.allocate dtype layout).runFrom storage = run at hallocates ⊢
  obtain ⟨outcome, after⟩ := run
  cases hallocates with
  | refused hadvances hclient => rfl
  | recycled hcontext hneeded hfound => rfl
  | fresh hcontext hneeded hnone hroom hrun hplaced =>
    subst hplaced
    exact SlotAllocator.maxSlots_place _ _

/-- So is freeing a variable. It is told with its outcome. -/
theorem quiet_free (v : Variable) : Moves Activity.Quiet (free v : ActivityM σ Unit) := by
  refine quiet_noted (fun _ => rfl) fun storage => ?_
  rw [StorageM.free, Stateful.runFrom_bind, Stateful.runFrom_get]
  dsimp only
  rw [Stateful.runFrom_bind, Stateful.runFrom_liftM]
  cases hrelease : storage.allocator.release v with
  | error cause => rfl
  | ok allocator =>
    rcases SlotAllocator.release_eq_ok.mp hrelease with ⟨-, rfl⟩ | ⟨_, _, -, -, -, rfl⟩ <;> rfl

/-- What is done to the world is not told to the journal. So it is quiet. -/
theorem quiet_onWorld (action : Action σ α) : Moves Activity.Quiet (onWorld action) := by
  intro activity
  rw [runFrom_onWorld]
  exact .of_journal_eq rfl rfl

end ActivityM

namespace BinaryNode

variable {σ : Type} {order : Activity σ → Activity σ → Prop} [IsPreorder (Activity σ) order]

section Moves

variable (hallocate : ∀ dtype layout, Moves order (ActivityM.allocate dtype layout : ActivityM σ Variable))
  (hfree : ∀ v, Moves order (ActivityM.free v : ActivityM σ Unit))
include hallocate hfree

omit hallocate in
/-- Filled storage moves the activity along an order if its filling does. If the
    filling fails, the storage is given back first. -/
theorem moves_filled (storage : Variable) {fill : Action σ Unit} (hfill : Moves order (ActivityM.onWorld fill)) :
    Moves order (filled storage fill) := by
  refine .bind (.attempt hfill) fun outcome => ?_
  rcases outcome with (cause | fault) | ⟨⟩
  · exact .bind (hfree storage) fun _ => .throw _
  · exact .throw _
  · exact .pure _

/-- Fresh storage moves along an order as what happens to storage does. -/
theorem moves_fresh (like : Variable) {fill : Value → Action σ Unit}
    (hfill : ∀ value, Moves order (ActivityM.onWorld (fill value))) : Moves order (fresh like fill) := by
  exact .bind (.lift _) fun layout => .bind (hallocate _ _) fun storage => moves_filled hfree storage (hfill storage.value)

/-- To compute a result moves along an order if storage does. What fills the
    storage has to as well. -/
theorem moves_compute (op : BinaryOp) (lhs rhs : Variable)
    (hfill : ∀ destination lhs rhs, Moves order (ActivityM.onWorld (do
      Elementwise.copyInto destination lhs
      Elementwise.assignBinary op destination rhs) : ActivityM σ Unit)) :
    Moves order (compute op lhs rhs : ActivityM σ Variable) := by
  intro activity
  rw [runFrom_compute]
  rcases checkOperands lhs rhs with failure | ⟨⟩
  · exact refl_of order activity
  · exact moves_fresh hallocate hfree lhs (fun value => hfill value lhs.value rhs.value) activity

/-- So does the whole step. Giving up the operand is a step of storage. -/
theorem moves_combine (op : BinaryOp) (side : Side) (held input : Variable)
    (hfill : ∀ destination lhs rhs, Moves order (ActivityM.onWorld (do
      Elementwise.copyInto destination lhs
      Elementwise.assignBinary op destination rhs) : ActivityM σ Unit)) :
    Moves order (combine op side held input : ActivityM σ Variable) := by
  have hreleasing {action : ActivityM σ Variable} (h : Moves order action) : Moves order (releasing held action) := by
    refine .bind (.attempt h) fun outcome => ?_
    rcases outcome with (cause | fault) | result
    · exact .bind (hfree held) fun _ => .throw _
    · exact .throw _
    · exact .bind (hfree held) fun _ => .pure _
  cases side with
  | lhs => exact hreleasing (moves_compute hallocate hfree op input held hfill)
  | rhs => exact hreleasing (moves_compute hallocate hfree op held input hfill)

end Moves

theorem quiet_hold (input : Variable) : Moves Activity.Quiet (hold input : ActivityM σ Variable) := by
  rw [hold_eq]
  exact moves_fresh ActivityM.quiet_allocate ActivityM.quiet_free input fun _ => ActivityM.quiet_onWorld _

theorem quiet_combine (op : BinaryOp) (side : Side) (held input : Variable) :
    Moves Activity.Quiet (combine op side held input : ActivityM σ Variable) :=
  moves_combine ActivityM.quiet_allocate ActivityM.quiet_free op side held input fun _ _ _ => ActivityM.quiet_onWorld _

end BinaryNode

end StagedArrays
