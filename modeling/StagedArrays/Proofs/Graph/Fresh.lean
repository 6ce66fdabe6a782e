import StagedArrays.Proofs.Graph.Pool

namespace StagedArrays

open Stateful (Ends Moves)

/-- The elements of a variable, in row-major order. -/
def Variable.elements (heap : Heap) (v : Variable) : Outcome (List Numeric) :=
  (Layout.rowMajor v.layout.extents).mapM (v.value.peek heap)

/-- A step of a graph at work that leaves slots in use alone, and makes no more
    than one. -/
structure Storage.Proceeds {σ : Type} (base : Nat) (before after : Storage σ) : Prop where
  pooled : after.Pooled base
  respects : before.Respects after
  maxSlots_eq : after.allocator.maxSlots = before.allocator.maxSlots
  totalSlots_le : after.allocator.totalSlots ≤ before.allocator.totalSlots + 1

/-- A step of a graph at work that gives a packed value of so many elements. -/
structure Storage.Gives {σ : Type} (base : Nat) (before : Storage σ) (like v : Variable) (xs : List Numeric)
    (after : Storage σ) : Prop extends before.Proceeds base after where
  dtype_eq : v.dtype = like.dtype
  extents_eq : v.layout.extents = like.layout.extents
  packs : ∃ size, v.layout.Packs v.layout.extents size
  managed : v.slot.isSome = true
  carries : after.Carries base v
  elements_eq : v.elements after.world.heap = .ok xs

/-- A step of a graph at work that gives no value, since all slots are made or
    there are no elements to give. -/
def Storage.Stops {σ ε : Type} (base : Nat) (before : Storage σ) (elements : Except ε (List Numeric)) (after : Storage σ) :
    Prop :=
  before.Proceeds base after ∧ (before.allocator.maxSlots ≤ before.allocator.totalSlots ∨ ∀ xs, elements ≠ .ok xs)

/-- A variable that is in use. If it has a slot, the slot is handed out. -/
structure Storage.Uses {σ : Type} (base : Nat) (storage : Storage σ) (v : Variable) : Prop extends storage.Carries base v where
  live : ∀ id, v.slot = some id → storage.allocator.isLive id.index = true

namespace Storage

variable {σ : Type} {base : Nat} {before after final : Storage σ}

theorem Proceeds.relabel (h : before.Proceeds base after) (hrelabels : after.Relabels final) : before.Proceeds base final :=
  ⟨hrelabels.pooled h.pooled, h.respects.relabel hrelabels, hrelabels.maxSlots_eq.trans h.maxSlots_eq,
    hrelabels.totalSlots_eq ▸ h.totalSlots_le⟩

theorem Proceeds.refl (h : before.Pooled base) : before.Proceeds base before :=
  ⟨h, .refl before, rfl, Nat.le_succ _⟩

theorem Stops.relabel {ε : Type} {elements : Except ε (List Numeric)} (h : before.Stops base elements after)
    (hrelabels : after.Relabels final) : before.Stops base elements final :=
  ⟨h.1.relabel hrelabels, h.2⟩

/-- Freshly filled storage keeps what it holds while slots are handed out or
    taken back. The heap is not touched by that. -/
theorem Gives.relabel {like v : Variable} {xs : List Numeric} (h : before.Gives base like v xs after)
    (hrelabels : after.Relabels final) : before.Gives base like v xs final :=
  ⟨h.toProceeds.relabel hrelabels, h.dtype_eq, h.extents_eq, h.packs, h.managed, hrelabels.carries h.carries, by
    rw [hrelabels.world_eq, h.elements_eq]⟩

end Storage

namespace ActivityM

variable {σ : Type}

/-- Freeing a variable leaves the heap as it is and changes the state of one
    slot at most. -/
theorem relabels_free (v : Variable) (activity : Activity σ) :
    Ends (fun _ after => activity.storage.Relabels after.storage) (fun _ after => activity.storage.Relabels after.storage) False
      ((free v).runFrom activity) := by
  have hself : activity.storage.Relabels activity.storage := refl_of Storage.Relabels activity.storage
  rw [runFrom_free]
  cases hrelease : activity.storage.allocator.release v with
  | error cause => exact .of_error hself
  | ok allocator =>
    rcases SlotAllocator.release_eq_ok.mp hrelease with ⟨-, rfl⟩ | ⟨id, _, -, -, -, rfl⟩
    · exact .of_ok hself
    · exact .of_ok ⟨SlotAllocator.statics_setLive _ _ _, rfl, rfl⟩

end ActivityM

namespace Elementwise

variable {σ : Type} {world : World σ} {destination lhs rhs : Value} {ref : HostRef} {size : Nat}

/-- A copy fills packed storage with the elements copied. If an element cannot
    be read, the copy fails for the same reason. -/
theorem fills_copyInto (hcontext : world.contexts.head? = some .compute) (hpacked : destination.Packed world.heap ref size)
    (hsound : lhs.Sound world.heap) (hdtype : lhs.dtype = destination.dtype)
    (hextents : lhs.layout.extents = destination.layout.extents)
    (hapart : ∀ other offset, lhs.data = .host other offset → other ≠ ref) :
    (copyInto destination lhs).Fills world destination ref
      ((Layout.rowMajor destination.layout.extents).mapM (lhs.peek world.heap)) := by
  obtain ⟨heap, hrun, htouches, hover⟩ := runFrom_copyInto hcontext hpacked hsound hdtype hextents hapart
  refine ⟨heap, hrun, htouches, fun xs hxs => ⟨hover xs hxs, hpacked.mapM_peek (hover xs hxs) ?_ fun coordinates hmem => ?_⟩⟩
  · exact (mapM_eq_ok_iff.mp hxs).length_eq.symm
  · obtain ⟨x, hx⟩ := exists_of_mapM hxs hmem
    obtain ⟨item, hitem, -⟩ := bind_eq_ok_iff.mp hx
    exact hpacked.indices_of_elementAt (Layout.mem_rowMajor.mp hmem) hitem

/-- A copy and an update fill packed storage with the combinations of two
    values. -/
theorem fills_copyInto_assignBinary (op : BinaryOp) (hcontext : world.contexts.head? = some .compute)
    (hpacked : destination.Packed world.heap ref size) (hlhs : lhs.Sound world.heap) (hrhs : rhs.Sound world.heap)
    (hdtype : lhs.dtype = destination.dtype) (hdtype' : rhs.dtype = destination.dtype)
    (hextents : lhs.layout.extents = destination.layout.extents)
    (hextents' : rhs.layout.rank = 0 ∨ rhs.layout.extents = destination.layout.extents)
    (hapart : ∀ other offset, lhs.data = .host other offset → other ≠ ref)
    (hapart' : ∀ other offset, rhs.data = .host other offset → other ≠ ref) :
    (copyInto destination lhs >>= fun _ => assignBinary op destination rhs).Fills world destination ref (do
      let _ ← (Layout.rowMajor destination.layout.extents).mapM (lhs.peek world.heap)
      (Layout.rowMajor destination.layout.extents).mapM (combineAt world.heap op lhs rhs)) := by
  obtain ⟨heap, hrun, htouches, hover⟩ := runFrom_copyInto_assignBinary op hcontext hpacked hlhs hrhs hdtype hdtype' hextents
    hextents' hapart hapart'
  refine ⟨heap, ?_, htouches, fun zs hzs => ?_⟩
  · rw [hrun]
    cases (Layout.rowMajor destination.layout.extents).mapM (lhs.peek world.heap) with
    | error failure => rfl
    | ok xs => cases (Layout.rowMajor destination.layout.extents).mapM (combineAt world.heap op lhs rhs) <;> rfl
  · obtain ⟨xs, hxs, hzs⟩ := bind_eq_ok_iff.mp hzs
    refine ⟨hover zs hzs, hpacked.mapM_peek (hover zs hzs) (mapM_eq_ok_iff.mp hzs).length_eq.symm fun coordinates hmem => ?_⟩
    obtain ⟨x, hx⟩ := exists_of_mapM hxs hmem
    obtain ⟨item, hitem, -⟩ := bind_eq_ok_iff.mp hx
    exact hpacked.indices_of_elementAt (Layout.mem_rowMajor.mp hmem) hitem

end Elementwise

/-- What two operands give, element by element. The first element that cannot be
    computed decides how it fails. -/
def Variable.combination (heap : Heap) (op : BinaryOp) (lhs rhs : Variable) : Outcome (List Numeric) := do
  let _ ← lhs.elements heap
  (Layout.rowMajor lhs.layout.extents).mapM (Elementwise.combineAt heap op lhs.value rhs.value)

namespace BinaryNode

variable {σ : Type} {base : Nat} {activity : Activity σ} {like : Variable} {fill : Value → Action σ Unit}
  {elements : Outcome (List Numeric)}

/-- Whatever room is taken for a packed variable of a type and extents, it is
    filled with the given elements. -/
def Fills (base : Nat) (storage : Storage σ) (like : Variable) (fill : Value → Action σ Unit)
    (elements : Outcome (List Numeric)) : Prop :=
  ∀ v after size index ref, v.dtype = like.dtype → v.layout.extents = like.layout.extents →
    storage.Takes base size v index ref after → (fill v.value).Fills after.world v.value ref elements

/-- What fresh storage holds is what it is filled with. If it cannot be filled,
    it is given back. -/
theorem fresh_ends (hpooled : activity.storage.Pooled base) (hfill : Fills base activity.storage like fill elements) :
    Ends (fun v after => ∃ xs, elements = .ok xs ∧ activity.storage.Gives base like v xs after.storage)
      (fun _ after => activity.storage.Stops base elements after.storage)
      ((∃ fault, like.layout.packedFor like.dtype = .error fault) ∨ ∀ xs, elements ≠ .ok xs)
      ((fresh like fill).runFrom activity) := by
  rw [fresh, Stateful.runFrom_bind, Stateful.runFrom_liftM]
  cases hpacked : like.layout.contiguous with
  | error fault => exact .of_fault (.inl ⟨fault, by rw [Layout.packedFor, hpacked]; rfl⟩)
  | ok layout =>
    obtain ⟨size, hpacks⟩ := Layout.packed_eq_ok hpacked
    have hallocate := hpooled.allocate_ends like.dtype hpacks.self
    dsimp only [liftM_fault_ok]
    rw [Stateful.runFrom_bind, ActivityM.allocate, ActivityM.runFrom_noted]
    generalize (StorageM.allocate like.dtype layout).runFrom activity.storage = run at hallocate ⊢
    obtain ⟨(cause | fault) | v, storage⟩ := run
    · obtain ⟨-, rfl, hfull⟩ := hallocate.error cause rfl
      exact .of_error ⟨.refl hpooled, .inl hfull⟩
    · refine .of_fault (.inl ⟨.capacityOverflow, ?_⟩)
      rw [Layout.packedFor_of_packs hpacked hpacks, hallocate.fault fault rfl]
      rfl
    · obtain ⟨hdtype, hlayout, index, ref, htakes⟩ := hallocate.ok v rfl
      have hextents : v.layout.extents = like.layout.extents := by rw [hlayout, hpacks.extents_eq]
      obtain ⟨heap, hrun, htouches, helements⟩ := hfill v storage size index ref hdtype hextents htakes
      have hproceeds : activity.storage.Proceeds base { storage with world := { storage.world with heap } } :=
        ⟨htakes.pooled_touched htouches, htakes.respects htouches, htakes.maxSlots_eq, htakes.totalSlots_le⟩
      dsimp only
      rw [filled, Stateful.runFrom_bind, Stateful.runFrom_attempt, ActivityM.runFrom_onWorld]
      dsimp only
      rw [hrun]
      rcases elements with (error | fault) | xs
      · dsimp only [Except.map, Except.mapError, Failure.map]
        let taken : Activity σ := ⟨{ storage with world := { storage.world with heap } },
          activity.journal.push (.allocated like.dtype layout.extents (.ok v.slot))⟩
        have hstops {after : Storage σ} (h : taken.storage.Relabels after) :
            activity.storage.Stops base (.error (.error error) : Outcome (List Numeric)) after :=
          ⟨hproceeds.relabel h, .inr fun _ heq => by cases heq⟩
        have hfreed := (ActivityM.relabels_free v taken).mono (fun _ _ => id) fun _ _ => hstops
        exact hfreed.of_false.bind fun _ _ hrelabels => .of_error (hstops hrelabels)
      · exact .of_fault (.inr fun _ heq => by cases heq)
      · exact .of_ok ⟨xs, rfl, hproceeds, hdtype, hextents, ⟨size, htakes.packed.packs⟩, by rw [htakes.slot_eq]; rfl,
          htakes.carries htouches, (helements xs rfl).2⟩

/-- Whether two operands fit together. The right one may be of rank 0, but not
    the left one alone. -/
theorem checkOperands_eq_ok_iff {lhs rhs : Variable} : checkOperands lhs rhs = .ok () ↔
    lhs.dtype = rhs.dtype ∧ (rhs.layout.rank = 0 ∨ rhs.layout.extents = lhs.layout.extents) := by
  unfold checkOperands
  by_cases hdtype : lhs.dtype = rhs.dtype
  · by_cases hextents : rhs.layout.rank ≠ 0 ∧ rhs.layout.extents ≠ lhs.layout.extents
    · have hnot : ¬(rhs.layout.rank = 0 ∨ rhs.layout.extents = lhs.layout.extents) := by
        rwa [not_or]
      simp only [hdtype, ne_eq, not_true, if_false, if_pos hextents, hnot, and_false, iff_false]
      cases lhs.value.size with
      | error fault => exact nofun
      | ok size => cases rhs.value.size <;> exact nofun
    · simp only [hdtype, ne_eq, not_true, if_false, if_neg hextents, true_and]
      rw [not_and_or, not_not, not_not] at hextents
      exact ⟨fun _ => hextents, fun _ => rfl⟩
  · simp only [hdtype, ne_eq, not_false_iff, if_true, false_and, iff_false]
    exact nofun

/-- What a node is to compute from two operands, whatever room there is. The
    operands are compared before any element is combined. -/
def product (heap : Heap) (op : BinaryOp) (lhs rhs : Variable) : Except (Failure GraphError) (List Numeric) := do
  checkOperands lhs rhs
  (Variable.combination heap op lhs rhs).mapError (Failure.map .value)

variable {input lhs rhs held : Variable}

/-- What a node keeps of an input is a copy of its elements in storage of the
    pool. -/
theorem fills_hold (hpooled : activity.storage.Pooled base) (hinput : activity.storage.Uses base input) :
    Fills base activity.storage input (Elementwise.copyInto · input.value) (input.elements activity.storage.world.heap) := by
  intro v after size index ref hdtype hextents htakes
  have hapart := htakes.apart hpooled hinput.toCarries hinput.live
  have halike : input.value.Alike activity.storage.world.heap after.world.heap := htakes.alike hpooled hinput.toCarries
  have hfills := Elementwise.fills_copyInto htakes.pooled.active htakes.packed (hinput.sound.of_alike halike) hdtype.symm
    hextents.symm hapart
  have hsame : (Layout.rowMajor v.value.layout.extents).mapM (input.value.peek after.world.heap) =
      input.elements activity.storage.world.heap := by
    rw [Variable.elements, show v.value.layout.extents = _ from hextents]
    exact mapM_congr fun coordinates _ => Value.peek_congr hinput.sound halike coordinates
  rwa [hsame] at hfills

/-- A held operand has the elements of the operand. What was in use before means
    the same as before. -/
theorem hold_ends (hpooled : activity.storage.Pooled base) (hinput : activity.storage.Uses base input) :
    Ends (fun v after => ∃ xs, input.elements activity.storage.world.heap = .ok xs ∧
        activity.storage.Gives base input v xs after.storage)
      (fun _ after => activity.storage.Stops base (input.elements activity.storage.world.heap) after.storage)
      ((∃ fault, input.layout.packedFor input.dtype = .error fault) ∨ ∀ xs, input.elements activity.storage.world.heap ≠ .ok xs)
      ((hold input).runFrom activity) := by
  rw [hold_eq]
  exact fresh_ends hpooled (fills_hold hpooled hinput)

/-- The output of a node is filled by a copy of the first operand and an update
    by the second. With operands that fit, it ends up with their combination
    element by element, or with the failure of the first pair that cannot be
    combined. -/
theorem fills_combined (op : BinaryOp) (hpooled : activity.storage.Pooled base) (hlhs : activity.storage.Uses base lhs)
    (hrhs : activity.storage.Uses base rhs) (hchecked : checkOperands lhs rhs = .ok ()) :
    Fills base activity.storage lhs
      (fun output => do
        Elementwise.copyInto output lhs.value
        Elementwise.assignBinary op output rhs.value)
      (Variable.combination activity.storage.world.heap op lhs rhs) := by
  obtain ⟨hsame, hfits⟩ := checkOperands_eq_ok_iff.mp hchecked
  intro v after size index ref hdtype hextents htakes
  have halike : lhs.value.Alike activity.storage.world.heap after.world.heap := htakes.alike hpooled hlhs.toCarries
  have halike' : rhs.value.Alike activity.storage.world.heap after.world.heap := htakes.alike hpooled hrhs.toCarries
  have hfits' : rhs.layout.rank = 0 ∨ rhs.layout.extents = v.layout.extents := hextents ▸ hfits
  have hfills := Elementwise.fills_copyInto_assignBinary op htakes.pooled.active htakes.packed
    (hlhs.sound.of_alike halike) (hrhs.sound.of_alike halike') hdtype.symm (hsame.symm.trans hdtype.symm) hextents.symm hfits'
    (htakes.apart hpooled hlhs.toCarries hlhs.live) (htakes.apart hpooled hrhs.toCarries hrhs.live)
  have hcombine (coordinates : List Nat) : Elementwise.combineAt activity.storage.world.heap op lhs.value rhs.value coordinates =
      Elementwise.combineAt after.world.heap op lhs.value rhs.value coordinates := by
    rw [Elementwise.combineAt, Elementwise.combineAt, Value.peek_congr hlhs.sound halike,
      Value.peekSource_congr hrhs.sound halike']
  have hcombination : Variable.combination activity.storage.world.heap op lhs rhs = (do
      let _ ← (Layout.rowMajor v.value.layout.extents).mapM (lhs.value.peek after.world.heap)
      (Layout.rowMajor v.value.layout.extents).mapM (Elementwise.combineAt after.world.heap op lhs.value rhs.value)) := by
    rw [Variable.combination, Variable.elements, show v.value.layout.extents = _ from hextents,
      mapM_congr fun coordinates _ => (Value.peek_congr hlhs.sound halike coordinates).symm,
      mapM_congr fun coordinates _ => hcombine coordinates]
  rwa [← hcombination] at hfills

/-- A result has the combinations of the elements of two operands. The left
    operand is copied first, and the copy updated. -/
theorem combined_ends (op : BinaryOp) (hpooled : activity.storage.Pooled base) (hlhs : activity.storage.Uses base lhs)
    (hrhs : activity.storage.Uses base rhs) (hchecked : checkOperands lhs rhs = .ok ()) :
    Ends (fun v after => ∃ xs, Variable.combination activity.storage.world.heap op lhs rhs = .ok xs ∧
        activity.storage.Gives base lhs v xs after.storage)
      (fun _ after => activity.storage.Stops base (Variable.combination activity.storage.world.heap op lhs rhs) after.storage)
      ((∃ fault, lhs.layout.packedFor lhs.dtype = .error fault) ∨
        ∀ xs, Variable.combination activity.storage.world.heap op lhs rhs ≠ .ok xs)
      ((combined op lhs rhs).runFrom activity) :=
  fresh_ends hpooled (fills_combined op hpooled hlhs hrhs hchecked)

/-- A product needs operands that fit and then is their combination. The two
    conditions are looked at one after the other. -/
theorem product_eq_ok_iff {heap : Heap} {op : BinaryOp} {xs : List Numeric} : product heap op lhs rhs = .ok xs ↔
    checkOperands lhs rhs = .ok () ∧ Variable.combination heap op lhs rhs = .ok xs := by
  rw [product]
  cases checkOperands lhs rhs with
  | error failure => exact ⟨nofun, fun h => nomatch h.1⟩
  | ok u =>
    rw [ok_bind]
    cases Variable.combination heap op lhs rhs <;> simp [Except.mapError]

/-- A result has the combinations of the elements of two operands that fit
    together. -/
theorem compute_ends (op : BinaryOp) (hpooled : activity.storage.Pooled base) (hlhs : activity.storage.Uses base lhs)
    (hrhs : activity.storage.Uses base rhs) :
    Ends (fun v after => ∃ xs, product activity.storage.world.heap op lhs rhs = .ok xs ∧
        activity.storage.Gives base lhs v xs after.storage)
      (fun _ after => activity.storage.Stops base (product activity.storage.world.heap op lhs rhs) after.storage)
      ((∃ fault, lhs.layout.packedFor lhs.dtype = .error fault) ∨ ∀ xs, product activity.storage.world.heap op lhs rhs ≠ .ok xs)
      ((compute op lhs rhs).runFrom activity) := by
  simp only [Storage.Stops, ne_eq, product_eq_ok_iff]
  rw [runFrom_compute]
  cases hchecked : checkOperands lhs rhs with
  | error failure =>
    rcases failure with cause | fault
    · exact .of_error ⟨.refl hpooled, .inr fun _ h => nomatch h.1⟩
    · exact .of_fault (.inr fun _ h => nomatch h.1)
  | ok u =>
    simp only [true_and]
    exact combined_ends op hpooled hlhs hrhs hchecked

/-- A value taken in after another that is held, as operands from left to
    right. -/
def arranged (side : Side) (held input : Variable) : Variable × Variable :=
  match side with
  | .rhs => (held, input)
  | .lhs => (input, held)

/-- What is true of both operands, each on its side, is true of the left and of
    the right. -/
theorem of_arranged (P : Side → Variable → Prop) {side : Side} (h : arranged side held input = (lhs, rhs))
    (hheld : P side.other held) (hinput : P side input) : P .lhs lhs ∧ P .rhs rhs := by
  cases side with
  | lhs =>
    cases h
    exact ⟨hinput, hheld⟩
  | rhs =>
    cases h
    exact ⟨hheld, hinput⟩

/-- The step of a node computes from operands in the right order, and then
    releases. The side decides about the order. -/
theorem combine_eq (op : BinaryOp) (side : Side) (held input : Variable) :
    (combine op side held input : ActivityM σ Variable) =
      releasing held (compute op (arranged side held input).1 (arranged side held input).2) := by
  cases side <;> rfl

/-- A result is computed before the operand held is given up. So the slot of the
    operand is not the one of the result. -/
theorem combine_ends (op : BinaryOp) (side : Side) (hpooled : activity.storage.Pooled base)
    (hheld : activity.storage.Uses base held) (hinput : activity.storage.Uses base input) {slots : List Nat}
    (hlends : activity.storage.allocator.Lends (held.slots ++ slots)) (harranged : arranged side held input = (lhs, rhs)) :
    Ends (fun v after => ∃ xs, product activity.storage.world.heap op lhs rhs = .ok xs ∧
        activity.storage.Gives base lhs v xs after.storage)
      (fun _ after => activity.storage.Stops base (product activity.storage.world.heap op lhs rhs) after.storage)
      ((∃ fault, lhs.layout.packedFor lhs.dtype = .error fault) ∨ ∀ xs, product activity.storage.world.heap op lhs rhs ≠ .ok xs)
      ((combine op side held input).runFrom activity) := by
  obtain ⟨hlhs, hrhs⟩ : activity.storage.Uses base lhs ∧ activity.storage.Uses base rhs :=
    of_arranged (fun _ => activity.storage.Uses base) harranged hheld hinput
  have hcompute := compute_ends op hpooled hlhs hrhs
  have hlends := compute_lends op lhs rhs hlends
  rw [combine_eq, harranged, releasing, Stateful.runFrom_bind, Stateful.runFrom_attempt]
  dsimp only
  generalize (compute op lhs rhs).runFrom activity = run at hcompute hlends ⊢
  obtain ⟨(cause | fault) | v, after⟩ := run
  · obtain ⟨allocator, hfree, -⟩ := ActivityM.free_lends (hlends.error cause rfl)
    have hfreed := (ActivityM.relabels_free held after).ok
    rw [hfree] at hfreed
    dsimp only
    rw [Stateful.runFrom_bind_of_ok hfree]
    exact .of_error ((hcompute.error cause rfl).relabel (hfreed () rfl))
  · exact .of_fault (hcompute.fault fault rfl)
  · obtain ⟨xs, hxs, hgives⟩ := hcompute.ok v rfl
    have hheld : after.storage.allocator.Lends (held.slots ++ (v.slots ++ slots)) := by
      refine (hlends.ok v rfl).perm ?_
      rw [← List.append_assoc, ← List.append_assoc]
      exact List.perm_append_comm.append_right slots
    obtain ⟨allocator, hfree, -⟩ := ActivityM.free_lends hheld
    have hfreed := (ActivityM.relabels_free held after).ok
    rw [hfree] at hfreed
    dsimp only
    rw [Stateful.runFrom_bind_of_ok hfree]
    exact .of_ok ⟨xs, hxs, hgives.relabel (hfreed () rfl)⟩

end BinaryNode

end StagedArrays
