import StagedArrays.Proofs.Graph.Steady
import StagedArrays.Proofs.Graph.Trails

namespace StagedArrays

open Stateful (Couples Ends Moves)

namespace Variable

variable {heap other heap' other' : Heap} {v lhs rhs : Variable} {xs : List Numeric}

/-- A variable has the same elements in two heaps. They may be in different
    buffers. -/
def Agrees (heap other : Heap) (v : Variable) : Prop :=
  ∀ coordinates ∈ Layout.rowMajor v.layout.extents, v.value.peek other coordinates = v.value.peek heap coordinates

theorem Agrees.elements_eq (h : v.Agrees heap other) : v.elements other = v.elements heap := mapM_congr h

theorem Agrees.trans {last : Heap} (h : v.Agrees heap other) (h' : v.Agrees other last) : v.Agrees heap last :=
  fun coordinates hmem => (h' coordinates hmem).trans (h coordinates hmem)

/-- A variable with the same elements in both heaps agrees. -/
theorem agrees_of_elements (h : v.elements heap = .ok xs) (h' : v.elements other = .ok xs) : v.Agrees heap other := by
  have hpaired := mapM_eq_ok_iff.mp h
  have hpaired' := mapM_eq_ok_iff.mp h'
  intro coordinates hmem
  obtain ⟨index, hlt, rfl⟩ := List.getElem_of_mem hmem
  rw [List.forall₂_iff_get] at hpaired hpaired'
  have hlt' : index < xs.length := hpaired.1 ▸ hlt
  exact (hpaired'.2 index hlt hlt').trans (hpaired.2 index hlt hlt').symm

theorem agrees_of_alike (hsound : v.value.Sound heap) (halike : v.value.Alike heap other) : v.Agrees heap other :=
  fun coordinates _ => Value.peek_congr hsound halike coordinates

/-- What happens apart from a variable does not change its elements. This may
    happen on both sides. -/
theorem Agrees.of_alike (h : v.Agrees heap other) (hsound : v.value.Sound heap) (hsound' : v.value.Sound other)
    (halike : v.value.Alike heap heap') (halike' : v.value.Alike other other') : v.Agrees heap' other' := by
  intro coordinates hmem
  rw [Value.peek_congr hsound halike, Value.peek_congr hsound' halike']
  exact h coordinates hmem

/-- The combination of operands that agree is the same in both heaps, failures
    included. -/
theorem Agrees.product_eq (hlhs : lhs.Agrees heap other) (hrhs : rhs.Agrees heap other) (hsound : rhs.value.Sound heap)
    (hsound' : rhs.value.Sound other) (op : BinaryOp) (hchecked : BinaryNode.checkOperands lhs rhs = .ok ()) :
    combination other op lhs rhs = combination heap op lhs rhs := by
  obtain ⟨-, hfits⟩ := BinaryNode.checkOperands_eq_ok_iff.mp hchecked
  have hsource (coordinates : List Nat) (hmem : coordinates ∈ Layout.rowMajor lhs.layout.extents) :
      rhs.value.peekSource other coordinates = rhs.value.peekSource heap coordinates := by
    rw [Value.peekSource, Value.peekSource, Value.sourceAt, Value.sourceAt]
    by_cases hrank : rhs.value.rank = 0
    · have hempty : [] ∈ Layout.rowMajor rhs.layout.extents := by
        rw [show rhs.layout.extents = [] from List.length_eq_zero_iff.mp hrank]
        exact List.mem_singleton_self _
      rw [if_pos hrank, ok_bind, if_pos hrank, ok_bind, ← Value.peek_nil hsound hrank, ← Value.peek_nil hsound' hrank]
      exact hrhs [] hempty
    · rw [if_neg hrank, if_neg hrank]
      refine hrhs coordinates ?_
      rwa [hfits.resolve_left hrank]
  rw [combination, combination, hlhs.elements_eq]
  congr 1
  funext _
  refine mapM_congr fun coordinates hmem => ?_
  rw [Elementwise.combineAt, Elementwise.combineAt, hlhs coordinates hmem, hsource coordinates hmem]

end Variable

namespace Activity

variable {σ : Type}

/-- Storage stays regular, and its slots what they are. There may be more of
    them afterwards. -/
def Extends (before after : Activity σ) : Prop := before.storage.Extends after.storage

instance : IsPreorder (Activity σ) Extends where
  refl activity := refl_of Storage.Extends activity.storage
  trans _ _ _ h h' := trans_of Storage.Extends h h'

/-- There are no more slots than there are going to be. A property of storage,
    said of all that a graph shares. -/
def Later (slots : List Slot) (activity : Activity σ) : Prop := activity.storage.Later slots

theorem later_moves {α : Type} {slots : List Slot} {action : ActivityM σ α} (h : Moves Extends action) :
    Moves (fun before after => Later slots after → Later slots before) action :=
  fun activity hlater => Storage.Later.of_extends hlater (h activity)

end Activity

namespace ActivityM

variable {σ α : Type} {s t : Activity σ}

/-- A note in the journal makes no difference to storage. It is what the action
    leaves. -/
theorem storage_noted (event : Except AllocatorError α → Event) (action : StorageM σ α) (activity : Activity σ) :
    ((noted event action).runFrom activity).2.storage = (action.runFrom activity.storage).2 := by
  rw [runFrom_noted]
  rcases action.runFrom activity.storage with ⟨(cause | fault) | value, storage⟩ <;> rfl

/-- An allocation leaves storage regular, and its slots what they are. It may
    add one. -/
theorem extends_allocate (dtype : DType) (layout : Layout) :
    Moves Activity.Extends (allocate dtype layout : ActivityM σ Variable) := by
  intro activity
  rw [Activity.Extends, allocate, storage_noted]
  exact Storage.extends_allocate activity.storage dtype layout

/-- Giving a variable back leaves the slots what they are. -/
theorem extends_free (v : Variable) : Moves Activity.Extends (free v : ActivityM σ Unit) := by
  intro activity
  exact (relabels_free v activity).always.extends

/-- What leaves the contexts alone extends storage. It has no access to the
    slots. -/
theorem extends_onWorld {action : Action σ α} (h : Moves World.Stays action) : Moves Activity.Extends (onWorld action) := by
  intro activity
  rw [runFrom_onWorld]
  exact Storage.extends_world (h activity.storage.world)

/-- Steps of two allocators that end alike are entered alike. The journals are
    not compared otherwise. -/
theorem noted_couples {value : α → Storage σ → Storage σ → Prop} {cause : AllocatorError → Storage σ → Storage σ → Prop}
    {broken : Prop} {event : Except AllocatorError α → Event} {action : StorageM σ α}
    (h : Couples value cause broken (action.runFrom s.storage) (action.runFrom t.storage)) :
    Couples (fun a s' t' => value a s'.storage t'.storage) (fun _ s' t' => ∃ e, cause e s'.storage t'.storage) broken
      ((noted event action).runFrom s) ((noted event action).runFrom t) := by
  rw [runFrom_noted, runFrom_noted]
  refine h.elim (fun a s' t' hvalue => ?_) (fun e s' t' hcause => ?_) fun fault s' run' hbroken => ?_
  · exact .of_ok hvalue
  · exact .of_error ⟨e, hcause⟩
  · exact .of_fault hbroken

end ActivityM

namespace BinaryNode

variable {σ : Type} {base : Nat} {s t : Activity σ} {slots : List Slot} {like : Variable} {fill : Value → Action σ Unit}
  {elements : Outcome (List Numeric)}

/-- Storage that is filled alike on both sides. The buffers may differ in what
    they held before. -/
theorem filled_couples {size index : Nat} {ref ref' : HostRef} {v : Variable} {action : Action σ Unit} {before : Storage σ}
    (htrails : s.storage.Trails slots t.storage)
    (htakes : before.Takes base size v index ref s.storage) (hfill : action.Fills s.storage.world v.value ref elements)
    (hfill' : action.Fills t.storage.world v.value ref' elements) :
    Couples (fun v s' t' => s'.storage.Trails slots t'.storage ∧ v.Agrees s'.storage.world.heap t'.storage.world.heap)
      (fun _ s' t' => s'.storage.Trails slots t'.storage) True ((filled v action).runFrom s) ((filled v action).runFrom t) := by
  obtain ⟨heap, hrun, -, helements⟩ := hfill
  obtain ⟨heap', hrun', -, helements'⟩ := hfill'
  rw [filled, Stateful.runFrom_bind, Stateful.runFrom_bind, Stateful.runFrom_attempt, Stateful.runFrom_attempt,
    ActivityM.runFrom_onWorld, ActivityM.runFrom_onWorld, hrun, hrun']
  rcases elements with (error | fault) | xs
  · dsimp only [Except.map, Except.mapError, Failure.map]
    let touched : Activity σ := { s with storage := { s.storage with world := { s.storage.world with heap } } }
    let touched' : Activity σ := { t with storage := { t.storage with world := { t.storage.world with heap := heap' } } }
    have htrails' : touched.storage.Trails slots touched'.storage :=
      ⟨htrails.maxSlots_eq, htrails.slots_eq, htrails.free, htrails.length_le⟩
    have hlt (id : SlotId) (hid : v.slot = some id) : id.index < touched.storage.allocator.totalSlots := by
      obtain ⟨slot, hslot, -⟩ := htakes.slot
      rw [htakes.slot_eq] at hid
      cases hid
      exact (Array.getElem?_eq_some_iff.mp hslot).1
    have hfree : Couples (fun _ s' t' => s'.storage.Trails slots t'.storage) (fun _ s' t' => s'.storage.Trails slots t'.storage)
        True ((ActivityM.free v).runFrom touched) ((ActivityM.free v).runFrom touched') :=
      ((ActivityM.free_couples htrails' hlt).mono (fun _ _ _ hok => hok.1) fun _ _ _ herror => herror.1).of_false
    exact hfree.bind fun _ _ _ _ hfreed => .of_error hfreed
  · exact .of_fault trivial
  · refine .of_ok ⟨⟨htrails.maxSlots_eq, htrails.slots_eq, htrails.free, htrails.length_le⟩, ?_⟩
    exact Variable.agrees_of_elements (helements xs rfl).2 (helements' xs rfl).2

/-- Room for the same variable is taken on both sides. Where one side makes a
    slot, the other may find it there. -/
theorem allocate_couples (htrails : s.storage.Trails slots t.storage) (hpooled : s.storage.Pooled base)
    (hpooled' : t.storage.Pooled base) {dtype : DType} {layout : Layout} {size : Nat} (hpacks : layout.Packs layout.extents size)
    (hlater : Activity.Later slots ((ActivityM.allocate dtype layout).runFrom s).2) :
    Couples (fun v s' t' => s'.storage.Trails slots t'.storage ∧ v.dtype = dtype ∧ v.layout = layout ∧
        (∃ index ref, s.storage.Takes base size v index ref s'.storage) ∧ ∃ index ref, t.storage.Takes base size v index ref t'.storage)
      (fun _ s' t' => s'.storage.Trails slots t'.storage) True ((ActivityM.allocate dtype layout).runFrom s)
      ((ActivityM.allocate dtype layout).runFrom t) := by
  rw [Activity.Later, ActivityM.allocate, ActivityM.storage_noted] at hlater
  have hcouples := (htrails.allocate_couples hpooled hpooled' hpacks.memorySize_eq hlater).and_ends
    (hpooled.allocate_ends dtype hpacks) (hpooled'.allocate_ends dtype hpacks)
  refine (ActivityM.noted_couples hcouples).mono ?_ ?_
  · rintro v s' t' ⟨hnext, ⟨hdtype, hlayout, htakes⟩, -, -, htakes'⟩
    exact ⟨hnext, hdtype, hlayout, htakes, htakes'⟩
  · rintro _ s' t' ⟨_, hnext, -⟩
    exact hnext

/-- Fresh storage that is filled alike on both sides. If it cannot be filled, it
    is given back on both. -/
theorem fresh_couples (htrails : s.storage.Trails slots t.storage) (hpooled : s.storage.Pooled base)
    (hpooled' : t.storage.Pooled base) (hstays : ∀ value, Moves World.Stays (fill value))
    (hfill : Fills base s.storage like fill elements) (hfill' : Fills base t.storage like fill elements)
    (hlater : Activity.Later slots ((fresh like fill).runFrom s).2) :
    Couples (fun v s' t' => s'.storage.Trails slots t'.storage ∧ v.Agrees s'.storage.world.heap t'.storage.world.heap)
      (fun _ s' t' => s'.storage.Trails slots t'.storage) True ((fresh like fill).runFrom s) ((fresh like fill).runFrom t) := by
  rw [fresh, Stateful.runFrom_bind, Stateful.runFrom_liftM] at hlater ⊢
  rw [Stateful.runFrom_bind, Stateful.runFrom_liftM]
  cases hpacked : like.layout.contiguous with
  | error fault => exact .of_fault trivial
  | ok layout =>
    obtain ⟨size, hpacks⟩ := Layout.packed_eq_ok hpacked
    rw [hpacked] at hlater
    dsimp only [liftM_fault_ok] at hlater ⊢
    have hmoves (v : Variable) : Moves (fun before after => Activity.Later slots after → Activity.Later slots before)
        (filled v (fill v.value) : ActivityM σ Variable) :=
      Activity.later_moves (moves_filled ActivityM.extends_free v (ActivityM.extends_onWorld (hstays v.value)))
    refine Couples.bind_of_later hlater hmoves (allocate_couples htrails hpooled hpooled' hpacks.self) ?_
    rintro v s' t' ⟨hnext, hdtype, hlayout, ⟨index, ref, htakes⟩, index', ref', htakes'⟩ -
    have hextents : v.layout.extents = like.layout.extents := by rw [hlayout, hpacks.extents_eq]
    exact filled_couples hnext htakes (hfill v _ size index ref hdtype hextents htakes)
      (hfill' v _ size index' ref' hdtype hextents htakes')

variable {input lhs rhs held : Variable}

/-- An operand in use on both sides, with the same elements. It has the same
    slot on both. -/
structure Shares (base : Nat) (s t : Activity σ) (v : Variable) : Prop where
  uses : s.storage.Uses base v
  uses' : t.storage.Uses base v
  agrees : v.Agrees s.storage.world.heap t.storage.world.heap

/-- Two nodes that hold operands with the same elements take copies that agree.
    If there is no room for one copy, there is none for the other. -/
theorem hold_couples (htrails : s.storage.Trails slots t.storage) (hpooled : s.storage.Pooled base)
    (hpooled' : t.storage.Pooled base) (hinput : Shares base s t input) (hlater : Activity.Later slots ((hold input).runFrom s).2) :
    Couples (fun v s' t' => s'.storage.Trails slots t'.storage ∧ v.Agrees s'.storage.world.heap t'.storage.world.heap)
      (fun _ s' t' => s'.storage.Trails slots t'.storage) True ((hold input).runFrom s) ((hold input).runFrom t) := by
  rw [hold_eq] at hlater ⊢
  have hfill' := fills_hold hpooled' hinput.uses'
  rw [hinput.agrees.elements_eq] at hfill'
  exact fresh_couples htrails hpooled hpooled' (fun _ => Context.follows_stays.copyInto _ _) (fills_hold hpooled hinput.uses) hfill'
    hlater

/-- Two nodes that combine operands with the same elements get results that
    agree, or the same error. -/
theorem compute_couples (op : BinaryOp) (htrails : s.storage.Trails slots t.storage) (hpooled : s.storage.Pooled base)
    (hpooled' : t.storage.Pooled base) (hlhs : Shares base s t lhs) (hrhs : Shares base s t rhs)
    (hlater : Activity.Later slots ((compute op lhs rhs).runFrom s).2) :
    Couples (fun v s' t' => s'.storage.Trails slots t'.storage ∧ v.Agrees s'.storage.world.heap t'.storage.world.heap)
      (fun _ s' t' => s'.storage.Trails slots t'.storage) True ((compute op lhs rhs).runFrom s)
      ((compute op lhs rhs).runFrom t) := by
  rw [runFrom_compute] at hlater ⊢
  rw [runFrom_compute]
  cases hchecked : checkOperands lhs rhs with
  | error failure =>
    rcases failure with cause | fault
    · exact .of_error htrails
    · exact .of_fault trivial
  | ok =>
    rw [hchecked] at hlater
    have hfill' := fills_combined op hpooled' hlhs.uses' hrhs.uses' hchecked
    rw [hlhs.agrees.product_eq hrhs.agrees hrhs.uses.sound hrhs.uses'.sound op hchecked] at hfill'
    refine fresh_couples htrails hpooled hpooled' (fun _ => ?_) (fills_combined op hpooled hlhs.uses hrhs.uses hchecked) hfill'
      hlater
    exact .bind (Context.follows_stays.copyInto _ _) fun _ => Context.follows_stays.assignBinary op _ _

/-- The slot of an operand that is there is given back on both sides, whatever
    the outcome before. -/
theorem releasing_couples {action : ActivityM σ Variable} (hmoves : Moves Activity.Extends action)
    (hregular : s.storage.Regular) (hlt : ∀ id, held.slot = some id → id.index < s.storage.allocator.totalSlots)
    (h : Activity.Later slots (action.runFrom s).2 →
      Couples (fun v s' t' => s'.storage.Trails slots t'.storage ∧ v.Agrees s'.storage.world.heap t'.storage.world.heap)
        (fun _ s' t' => s'.storage.Trails slots t'.storage) True (action.runFrom s) (action.runFrom t))
    (hlater : Activity.Later slots ((releasing held action).runFrom s).2) :
    Couples (fun v s' t' => s'.storage.Trails slots t'.storage ∧ v.Agrees s'.storage.world.heap t'.storage.world.heap)
      (fun _ s' t' => s'.storage.Trails slots t'.storage) True ((releasing held action).runFrom s)
      ((releasing held action).runFrom t) := by
  have hprefix := (hmoves s hregular).statics_grow
  rw [releasing, Stateful.runFrom_bind, Stateful.runFrom_attempt] at hlater ⊢
  rw [Stateful.runFrom_bind, Stateful.runFrom_attempt]
  generalize action.runFrom s = run, action.runFrom t = run' at h hprefix hlater ⊢
  obtain ⟨outcome, s'⟩ := run
  obtain ⟨outcome', t'⟩ := run'
  have hlt' (id : SlotId) (hid : held.slot = some id) : id.index < s'.storage.allocator.totalSlots := by
    have hle := hprefix.length_le
    rw [SlotAllocator.length_statics, SlotAllocator.length_statics] at hle
    exact Nat.lt_of_lt_of_le (hlt id hid) hle
  have hafter (next : Unit → ActivityM σ Variable) (hnext : ∀ u, Moves Activity.Extends (next u))
      (hlater : Activity.Later slots ((ActivityM.free held >>= next).runFrom s').2) : Activity.Later slots s' :=
    Activity.later_moves (.bind (ActivityM.extends_free held) hnext) s' hlater
  have hfree (htrails : s'.storage.Trails slots t'.storage) : Couples
      (fun _ s'' t'' => s''.storage.Trails slots t''.storage ∧ s'.storage.Relabels s''.storage ∧ t'.storage.Relabels t''.storage)
      (fun _ s'' t'' => s''.storage.Trails slots t''.storage) True ((ActivityM.free held).runFrom s')
      ((ActivityM.free held).runFrom t') :=
    ((ActivityM.free_couples htrails hlt').mono (fun _ _ _ hok => hok) fun _ _ _ herror => herror.1).of_false
  rcases outcome with (cause | fault) | v
  · have hcouples := h (hafter _ (fun _ => .settle _) hlater)
    obtain rfl : outcome' = .error (.error cause) := hcouples.outcome_of_error rfl
    exact (hfree (hcouples.error cause rfl)).bind fun _ _ _ _ hfreed => .of_error hfreed.1
  · exact .of_fault trivial
  · have hcouples := h (hafter _ (fun _ => .settle _) hlater)
    obtain rfl : outcome' = .ok v := hcouples.outcome_of_ok rfl
    obtain ⟨htrails, hagrees⟩ := hcouples.ok v rfl
    refine (hfree htrails).bind fun _ s'' t'' _ hfreed => ?_
    obtain ⟨hfreed, hrelabels, hrelabels'⟩ := hfreed
    refine .of_ok ⟨hfreed, ?_⟩
    rw [hrelabels.world_eq, hrelabels'.world_eq]
    exact hagrees

/-- To fill storage with a combination extends it. No slot is asked for. -/
theorem extends_fill (op : BinaryOp) (destination lhs rhs : Value) : Moves Activity.Extends (ActivityM.onWorld (do
    Elementwise.copyInto destination lhs
    Elementwise.assignBinary op destination rhs) : ActivityM σ Unit) :=
  ActivityM.extends_onWorld (.bind (Context.follows_stays.copyInto _ _) fun _ => Context.follows_stays.assignBinary op _ _)

/-- The same for the whole step, with what was held given back on both sides.
    The results agree if there are any. -/
theorem combine_couples (op : BinaryOp) (side : Side) (htrails : s.storage.Trails slots t.storage)
    (hpooled : s.storage.Pooled base) (hpooled' : t.storage.Pooled base) (hheld : Shares base s t held)
    (hinput : Shares base s t input) (hlater : Activity.Later slots ((combine op side held input).runFrom s).2) :
    Couples (fun v s' t' => s'.storage.Trails slots t'.storage ∧ v.Agrees s'.storage.world.heap t'.storage.world.heap)
      (fun _ s' t' => s'.storage.Trails slots t'.storage) True ((combine op side held input).runFrom s)
      ((combine op side held input).runFrom t) := by
  obtain ⟨lhs, rhs, harranged⟩ : ∃ lhs rhs, arranged side held input = (lhs, rhs) := ⟨_, _, rfl⟩
  obtain ⟨hlhs, hrhs⟩ : Shares base s t lhs ∧ Shares base s t rhs :=
    of_arranged (fun _ => Shares base s t) harranged hheld hinput
  rw [combine_eq, harranged] at hlater ⊢
  have hmoves : Moves Activity.Extends (compute op lhs rhs : ActivityM σ Variable) :=
    moves_compute ActivityM.extends_allocate ActivityM.extends_free op lhs rhs (extends_fill op)
  refine releasing_couples hmoves hpooled.regular (fun id hid => ?_)
    (compute_couples op htrails hpooled hpooled' hlhs hrhs) hlater
  obtain ⟨slot, -, hslot, -⟩ := hheld.uses.managed id hid
  exact (Array.getElem?_eq_some_iff.mp hslot).1

end BinaryNode

end StagedArrays
