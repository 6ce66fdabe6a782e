import StagedArrays.Proofs.Allocator.Allocation
import StagedArrays.Proofs.Graph.Journal

namespace StagedArrays

open Stateful (Ends Moves)

/-- The slot of a variable, if it has one. A list, so that the slots of several
    variables can be put together. -/
def Variable.slots (v : Variable) : List Nat := (v.slot.map SlotId.index).toList

namespace SlotAllocator

/-- Whether a slot is handed out. -/
def isLive (allocator : SlotAllocator) (index : Nat) : Bool := allocator.slots[index]?.any (·.live)

/-- Just these slots are handed out. No slot is listed twice. -/
structure Lends (allocator : SlotAllocator) (slots : List Nat) : Prop where
  nodup : slots.Nodup
  isLive_iff : ∀ index, allocator.isLive index = true ↔ index ∈ slots

variable {allocator after : SlotAllocator} {slots others : List Nat} {slot : Slot} {index : Nat} {v : Variable}

theorem Lends.perm (h : allocator.Lends slots) (hperm : slots.Perm others) : allocator.Lends others :=
  ⟨hperm.nodup_iff.mp h.nodup, fun index => (h.isLive_iff index).trans hperm.mem_iff⟩

theorem isLive_eq_true : allocator.isLive index = true ↔ ∃ slot, allocator.slots[index]? = some slot ∧ slot.live = true := by
  rw [isLive, Option.any_eq_true]

theorem isLive_eq_false (hslot : allocator.slots[index]? = some slot) (hfree : slot.live = false) :
    allocator.isLive index = false := by
  rw [isLive, hslot, Option.any_some, hfree]

/-- Handing a slot out or taking it back changes whether this slot is live, and
    no other. -/
theorem isLive_setLive (hslot : allocator.slots[index]? = some slot) (live : Bool) (other : Nat) :
    (allocator.setLive index live).isLive other = if index = other then live else allocator.isLive other := by
  rw [isLive, getElem?_setLive]
  split
  · next heq => rw [← heq, hslot, Option.map_some, Option.any_some]
  · rfl

/-- A slot that is placed goes into the stale one that is given up for it, or
    behind all the others. -/
theorem isLive_place {stale : Option Nat} (hstale : ∀ index ∈ stale, index < allocator.slots.size) (slot : Slot)
    (other : Nat) : (allocator.place slot stale).2.isLive other =
      if stale.getD allocator.slots.size = other then slot.live else allocator.isLive other := by
  rw [isLive, getElem?_place hstale]
  split
  · rfl
  · rfl

/-- Some slots are handed out at any time. They can be listed, as the slots of
    an allocator are finitely many. -/
theorem exists_lends (allocator : SlotAllocator) : ∃ slots, allocator.Lends slots := by
  refine ⟨(List.range allocator.slots.size).filter allocator.isLive, List.nodup_range.filter _, fun index => ?_⟩
  rw [List.mem_filter, List.mem_range]
  refine ⟨fun hlive => ⟨?_, hlive⟩, And.right⟩
  obtain ⟨slot, hslot, -⟩ := isLive_eq_true.mp hlive
  exact (Array.getElem?_eq_some_iff.mp hslot).1

theorem Lends.isLive_eq (h : allocator.Lends slots) (h' : after.Lends slots) (index : Nat) :
    after.isLive index = allocator.isLive index :=
  Bool.eq_iff_iff.mpr ((h'.isLive_iff index).trans (h.isLive_iff index).symm)

/-- A slot that was not handed out is handed out as well. All others stay as
    they were. -/
theorem Lends.cons (h : allocator.Lends slots) (hfree : allocator.isLive index = false)
    (hafter : ∀ other, after.isLive other = if index = other then true else allocator.isLive other) :
    after.Lends (index :: slots) := by
  refine ⟨List.nodup_cons.mpr ⟨fun hmem => ?_, h.nodup⟩, fun other => ?_⟩
  · rw [(h.isLive_iff index).mpr hmem] at hfree
    cases hfree
  · rw [hafter, List.mem_cons, ← h.isLive_iff]
    split
    · next heq => simp [heq]
    · next hne => simp [Ne.symm hne]

/-- So is one that fresh storage goes into. -/
theorem Lends.place (h : allocator.Lends slots) {scope : Nat} (hlive : slot.live = true) :
    (allocator.place slot (allocator.stale? scope)).2.Lends
      ((allocator.place slot (allocator.stale? scope)).1.index :: slots) := by
  have hlt : ∀ index ∈ allocator.stale? scope, index < allocator.slots.size :=
    fun index hindex => lt_of_stale?_eq_some hindex
  have hafter := isLive_place hlt slot
  rw [place_fst]
  refine h.cons ?_ (by simpa only [hlive] using hafter)
  cases hstale : allocator.stale? scope with
  | none => simp [isLive]
  | some index =>
    obtain ⟨old, hold, hfree, -⟩ := stale?_eq_some hstale
    exact isLive_eq_false hold hfree

/-- What is handed out can be taken back. There is no error where a variable
    still has its slot. -/
theorem Lends.release (h : allocator.Lends (v.slots ++ slots)) :
    ∃ after, allocator.release v = .ok after ∧ after.Lends slots := by
  obtain ⟨_ | ⟨⟨index⟩⟩, value⟩ := v
  · exact ⟨allocator, rfl, h⟩
  · have hlive := (h.isLive_iff index).mpr (List.mem_cons_self)
    obtain ⟨slot, hslot, hlive⟩ := isLive_eq_true.mp hlive
    refine ⟨allocator.setLive index false, release_eq_ok.mpr (.inr ⟨⟨index⟩, slot, rfl, hslot, hlive, rfl⟩), ?_⟩
    obtain ⟨hnew, hnodup⟩ := List.nodup_cons.mp h.nodup
    refine ⟨hnodup, fun other => ?_⟩
    rw [isLive_setLive hslot]
    split
    · next heq => simpa [← heq] using hnew
    · next hne => simpa [Variable.slots, Ne.symm hne] using h.isLive_iff other

end SlotAllocator

namespace StorageM

variable {σ : Type} {storage : Storage σ} {dtype : DType} {layout : Layout} {slots : List Nat} {v : Variable}

/-- An allocation that succeeds lends one more slot, and any other none. It is
    the slot of the variable that is handed out. -/
theorem allocate_lends (h : storage.allocator.Lends slots) :
    Ends (fun v after => after.allocator.Lends (v.slots ++ slots)) (fun _ after => after.allocator.Lends slots) True
      ((allocate dtype layout).runFrom storage) := by
  have hallocates := allocates storage dtype layout
  generalize (allocate dtype layout).runFrom storage = run at hallocates ⊢
  obtain ⟨outcome, after⟩ := run
  cases hallocates with
  | @refused failure world =>
    cases failure with
    | error cause => exact .of_error h
    | fault fault => exact .of_fault trivial
  | recycled hcontext hneeded hfound =>
    obtain ⟨hslot, hfree, -⟩ := SlotAllocator.recyclable?_eq_some hfound
    exact .of_ok (h.cons (SlotAllocator.isLive_eq_false hslot hfree) (SlotAllocator.isLive_setLive hslot true))
  | fresh hcontext hneeded hnone hroom hrun hplaced =>
    subst hplaced
    exact .of_ok (h.place rfl)

/-- A variable whose slot is lent can be given back, and its slot is then no
    longer lent. -/
theorem free_lends (h : storage.allocator.Lends (v.slots ++ slots)) :
    ∃ allocator, (free v).runFrom storage = (.ok (), { storage with allocator }) ∧ allocator.Lends slots := by
  obtain ⟨allocator, hrelease, hlends⟩ := h.release
  refine ⟨allocator, ?_, hlends⟩
  simp only [free, Stateful.runFrom_bind, Stateful.runFrom_get, Stateful.runFrom_liftM, hrelease, liftM_error_ok,
    runFrom_setAllocator]

end StorageM

namespace ActivityM

variable {σ : Type} {activity : Activity σ} {dtype : DType} {layout : Layout} {slots : List Nat} {v : Variable}

/-- An allocation lends the slot of its result besides those that were lent, and
    a failed one lends nothing. -/
theorem allocate_lends (h : activity.storage.allocator.Lends slots) :
    Ends (fun v after => after.storage.allocator.Lends (v.slots ++ slots))
      (fun _ after => after.storage.allocator.Lends slots) True ((allocate dtype layout).runFrom activity) := by
  rw [allocate, runFrom_noted]
  have hends : Ends (fun v after => after.allocator.Lends (v.slots ++ slots)) (fun _ after => after.allocator.Lends slots)
      True ((StorageM.allocate dtype layout).runFrom activity.storage) := StorageM.allocate_lends h
  generalize (StorageM.allocate dtype layout).runFrom activity.storage = run at hends ⊢
  obtain ⟨(cause | fault) | v, after⟩ := run
  · exact .of_error (hends.error cause rfl)
  · exact .of_fault trivial
  · exact .of_ok (hends.ok v rfl)

/-- To free a variable that has its slot always succeeds. The journal is told of
    it. -/
theorem free_lends (h : activity.storage.allocator.Lends (v.slots ++ slots)) :
    ∃ allocator, (free v).runFrom activity = (.ok (), ⟨{ activity.storage with allocator },
        activity.journal.push (.freed v.slot (.ok ()))⟩) ∧ allocator.Lends slots := by
  obtain ⟨allocator, hrun, hlends⟩ := StorageM.free_lends h
  refine ⟨allocator, ?_, hlends⟩
  rw [free, runFrom_noted, hrun]

end ActivityM

namespace BinaryNode

variable {σ : Type} {activity : Activity σ} {slots : List Nat} {v held : Variable}

/-- Storage that could not be filled is given back. This is why a failed
    allocation leaves no slot in use. -/
theorem filled_lends (h : activity.storage.allocator.Lends (v.slots ++ slots)) (fill : Action σ Unit) :
    Ends (fun result after => after.storage.allocator.Lends (result.slots ++ slots))
      (fun _ after => after.storage.allocator.Lends slots) True ((filled v fill).runFrom activity) := by
  rw [filled, Stateful.runFrom_bind, Stateful.runFrom_attempt, ActivityM.runFrom_onWorld]
  rcases fill.runFrom activity.storage.world with ⟨(cause | fault) | ⟨⟩, world⟩
  · have hlends : (⟨⟨activity.storage.allocator, world⟩, activity.journal⟩ : Activity σ).storage.allocator.Lends
        (v.slots ++ slots) := h
    obtain ⟨allocator, hrun, hafter⟩ := ActivityM.free_lends hlends
    dsimp only [Except.mapError, Failure.map]
    rw [Stateful.runFrom_bind_of_ok hrun]
    exact .of_error hafter
  · exact .of_fault trivial
  · exact .of_ok h

/-- Fresh storage is lent once it is filled. If filling it fails, it is given
    back, and the slots that are lent are those from before. -/
theorem fresh_lends (h : activity.storage.allocator.Lends slots) (fill : Value → Action σ Unit) :
    Ends (fun result after => after.storage.allocator.Lends (result.slots ++ slots))
      (fun _ after => after.storage.allocator.Lends slots) True ((fresh v fill).runFrom activity) := by
  have hpacked : Ends (fun _ after => after.storage.allocator.Lends slots) (fun _ after => after.storage.allocator.Lends slots)
      True ((liftM v.layout.contiguous : ActivityM σ Layout).runFrom activity) := .lift_fault trivial fun _ _ => h
  refine hpacked.bind fun layout after h => ?_
  exact (ActivityM.allocate_lends h).bind fun storage after h => filled_lends h _

/-- To hold an operand lends one more slot if it succeeds. If not, none is
    lent. -/
theorem hold_lends (input : Variable) (h : activity.storage.allocator.Lends slots) :
    Ends (fun result after => after.storage.allocator.Lends (result.slots ++ slots))
      (fun _ after => after.storage.allocator.Lends slots) True ((hold input).runFrom activity) := by
  rw [hold_eq]
  exact fresh_lends h _

/-- The result of a combination is lent, and nothing besides. The operands keep
    what they have. -/
theorem compute_lends (op : BinaryOp) (lhs rhs : Variable) (h : activity.storage.allocator.Lends slots) :
    Ends (fun result after => after.storage.allocator.Lends (result.slots ++ slots))
      (fun _ after => after.storage.allocator.Lends slots) True ((compute op lhs rhs).runFrom activity) := by
  rw [runFrom_compute]
  rcases checkOperands lhs rhs with (cause | fault) | ⟨⟩
  · exact .of_error h
  · exact .of_fault trivial
  · exact fresh_lends h _

/-- Whatever is held while an action runs is given back after it, also if the
    action fails. -/
theorem releasing_lends {action : ActivityM σ Variable}
    (h : Ends (fun result after => after.storage.allocator.Lends (result.slots ++ (held.slots ++ slots)))
      (fun _ after => after.storage.allocator.Lends (held.slots ++ slots)) True (action.runFrom activity)) :
    Ends (fun result after => after.storage.allocator.Lends (result.slots ++ slots))
      (fun _ after => after.storage.allocator.Lends slots) True ((releasing held action).runFrom activity) := by
  rw [releasing, Stateful.runFrom_bind, Stateful.runFrom_attempt]
  generalize action.runFrom activity = run at h ⊢
  obtain ⟨(cause | fault) | result, after⟩ := run
  · obtain ⟨allocator, hrun, hlends⟩ := ActivityM.free_lends (h.error cause rfl)
    dsimp only
    rw [Stateful.runFrom_bind_of_ok hrun]
    exact .of_error hlends
  · exact .of_fault trivial
  · have hresult : after.storage.allocator.Lends (held.slots ++ (result.slots ++ slots)) := by
      refine (h.ok result rfl).perm ?_
      rw [← List.append_assoc, ← List.append_assoc]
      exact List.perm_append_comm.append_right slots
    obtain ⟨allocator, hrun, hlends⟩ := ActivityM.free_lends hresult
    dsimp only
    rw [Stateful.runFrom_bind_of_ok hrun]
    exact .of_ok hlends

/-- The held operand loses its slot, whatever becomes of the result. Only a
    fault leaves it as it is. -/
theorem combine_lends (op : BinaryOp) (side : Side) (input : Variable)
    (h : activity.storage.allocator.Lends (held.slots ++ slots)) :
    Ends (fun result after => after.storage.allocator.Lends (result.slots ++ slots))
      (fun _ after => after.storage.allocator.Lends slots) True ((combine op side held input).runFrom activity) := by
  cases side with
  | lhs => exact releasing_lends (compute_lends op input held h)
  | rhs => exact releasing_lends (compute_lends op held input h)

end BinaryNode

end StagedArrays
