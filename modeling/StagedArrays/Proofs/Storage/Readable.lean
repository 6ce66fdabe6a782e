import StagedArrays.Kernel.Interleaved
import StagedArrays.Proofs.Storage.Inventory

namespace StagedArrays

/-- What those who read a value can rely on. Host data are of its type and reach
    as far as its layout; immediates and registers are scalars. All elements of
    host data can be listed, in row-major order and each from where the layout
    leads to, unless there are more than can be counted or given room; and each
    of them can be had by its coordinates. No element is looked for outside the
    buffer. -/
structure Value.Readable {σ : Type} (world : World σ) (value : Value) : Prop where
  host_fits : ∀ ref offset, value.data = .host ref offset → (world.heap.get ref).dtype = value.dtype ∧
    ∃ size, value.layout.memorySize = .ok size ∧ offset + size ≤ (world.heap.get ref).length
  constant_rank : ∀ x, value.data = .constant x → x.dtype = value.dtype ∧ value.rank = 0
  register_rank : ∀ id, value.data = .register id → value.rank = 0
  listed : ∀ ref offset count target, value.data = .host ref offset → value.size = .ok count →
    count * target.size < Word.bound / 2 →
    ∃ elements, value.toList world.heap target = .ok (elements.map (·.cast target)) ∧
      List.Forall₂ (fun coordinates x => ∃ place, value.layout.offset coordinates = .ok place ∧
        (world.heap.get ref).get? (offset + place) = some x) (Layout.rowMajor value.layout.extents) elements
  element : ∀ ref offset scalars coordinates, value.data = .host ref offset →
    (Direct.readIndices scalars).runFrom world.heap = (.ok coordinates, world.heap) →
    Layout.InBounds coordinates value.layout.extents →
    ∃ item x place, (Context.compute.element value scalars).runFrom world = (.ok item, world) ∧
      (Context.compute.load item).runFrom world = (.ok (.constant x), world) ∧
      value.layout.offset coordinates = .ok place ∧ (world.heap.get ref).get? (offset + place) = some x
  listed_inside : ∀ target index,
    value.toList world.heap target ≠ .error (.error (.invalidArgument (.readIndex index)))
  loaded_inside : ∀ offset,
    ((Context.compute.load value).runFrom world).1 ≠ .error (.error (.invalidArgument (.hostOffset offset)))

namespace Value.Fits

variable {σ : Type} {world : World σ} {value : Value}

/-- Copying a value out never fails for an index, if the value lies within its
    storage. -/
theorem toList_ne_readIndex {heap : Heap} (h : value.Fits heap) (target : DType) (index : Nat) :
    value.toList heap target ≠ .error (.error (.invalidArgument (.readIndex index))) := by
  cases hdata : value.data with
  | constant x => simp [toList, hdata]
  | buffer id place => simp [toList, hdata]
  | register id => simp [toList, hdata]
  | host ref offset =>
    cases hcount : value.size with
    | error fault =>
      simp only [toList, hdata, hcount]
      exact fun h => by cases h
    | ok count =>
      by_cases hroom : count * target.size < Word.bound / 2
      · obtain ⟨elements, hlist, -⟩ := h.exists_toList hdata hcount hroom
        rw [hlist]
        exact fun h => by cases h
      · have hrefused : target.reserve count = .error .capacityOverflow := if_neg hroom
        simp only [toList, hdata, hcount, liftM_fault_ok, ok_bind, hrefused]
        exact fun h => by cases h

/-- Loading a scalar never fails for its offset then. The element that it stands
    for is in its buffer. -/
theorem load_ne_hostOffset {heap : Heap} (h : value.Fits heap) (offset : Nat) :
    ((Direct.load value).runFrom heap).1 ≠ .error (.error (.invalidArgument (.hostOffset offset))) := by
  rw [Direct.load, Stateful.runFrom_bind, Direct.runFrom_read, held]
  cases hrank : value.layout.ensureRank 0 with
  | error cause => exact fun h => by cases h
  | ok u =>
    dsimp only [liftM_layoutError_ok, ok_bind]
    cases hdata : value.data with
    | constant x => exact fun h => by cases h
    | buffer id place => exact fun h => by cases h
    | register id => exact fun h => by cases h
    | host ref place =>
      obtain ⟨-, size, hsize, hle⟩ := h.host_eq hdata
      have hone := Layout.memorySize_of_rank_zero (Layout.ensureRank_eq_ok.mp hrank)
      obtain rfl : 1 = size := Except.ok.inj (hone.symm.trans hsize)
      obtain ⟨x, hx, -⟩ := HostBuffer.exists_get? (Nat.lt_of_succ_le hle)
      dsimp only
      rw [hx]
      exact fun h => by cases h

/-- Every value that lies within its storage can be read at all coordinates in
    bounds. -/
theorem readable (h : value.Fits world.heap) : value.Readable world where
  host_fits _ _ hdata := h.host_eq hdata
  constant_rank _ hdata := h.constant_eq hdata
  register_rank _ hdata := h.rank_register hdata
  listed _ _ _ _ hdata hcount hroom := h.exists_toList hdata hcount hroom
  element ref offset scalars coordinates hdata hindices hin := by
    obtain ⟨item, x, place, hitem, hload, hplace, hx⟩ := h.exists_element hdata hindices hin
    refine ⟨item, x, place, ?_, ?_, hplace, hx⟩
    · rw [Context.element, Action.runFrom_onHeap, hitem]
    · rw [Context.load, Action.runFrom_onHeap, hload]
  listed_inside := h.toList_ne_readIndex
  loaded_inside := h.load_ne_hostOffset

end Value.Fits

namespace Inventory

variable {σ : Type} {world : World σ} {s : Inventory σ} {value : Value}

/-- Every value that the library has handed out, by whatever operations and
    whatever happened between them, fits its storage and can be read. -/
theorem readable_of_reaches [ArrayLibrary] (hrun : Reaches { world } s) (hvalue : value ∈ s.values) : value.Readable s.world := by
  have hstart : Fits ({ world } : Inventory σ) :=
    ⟨fun _ hv => (List.not_mem_nil hv).elim, fun _ hmem => (List.not_mem_nil hmem).elim⟩
  exact ((hstart.reaches hrun).values value hvalue).readable

/-- One number on the host. -/
def single : HostBuffer := ⟨.i32, #[.i32 7], by simp [Numeric.dtype]⟩

/-- It, and so many views of it that a list of them would take more bytes than
    an allocation can have. -/
def spreading : Inventory Unit where
  world := { heap := ⟨#[single]⟩, client := () }
  values := [⟨.i32, ⟨[1], [1]⟩, .host ⟨0⟩ 0⟩, ⟨.i32, ⟨[2 ^ 61], [0]⟩, .host ⟨0⟩ 0⟩]

/-- The inventory of the example is reached by the operations of a session. -/
theorem reaches_spreading : Reaches { world := { client := () } } spreading := by
  have hone : Layout.Formed ⟨[1], [1]⟩ := rfl
  have hmany : Layout.Formed ⟨[2 ^ 61], [0]⟩ := rfl
  have hhost := @Step.perform Unit _ { world := { client := () } } _ (.ok [⟨.i32, ⟨[1], [1]⟩, .host ⟨0⟩ 0⟩])
    { heap := ⟨#[single]⟩, client := () } (.host single hone) rfl
  have hview := @Step.perform Unit _ { spreading with values := [⟨.i32, ⟨[1], [1]⟩, .host ⟨0⟩ 0⟩] } _
    (.ok [⟨.i32, ⟨[2 ^ 61], [0]⟩, .host ⟨0⟩ 0⟩])
    { heap := ⟨#[single]⟩, client := () } (.withLayout List.mem_cons_self hmany) rfl
  exact .tail (.single hhost) hview

theorem readable_of_reaches_spreading : Reaches { world := { client := () } } spreading ∧
    (⟨.i32, ⟨[1], [1]⟩, .host ⟨0⟩ 0⟩ : Value).Readable spreading.world :=
  ⟨reaches_spreading, readable_of_reaches reaches_spreading List.mem_cons_self⟩

/-- That its elements can be counted is not enough to list those of a value. -/
theorem spreading_unlisted : Reaches { world := { client := () } } spreading ∧
    ∃ v ∈ spreading.values, v.data = .host ⟨0⟩ 0 ∧ v.size = .ok (2 ^ 61) ∧
      v.toList spreading.world.heap .i32 = .error (.fault .capacityOverflow) :=
  ⟨reaches_spreading, _, List.mem_cons_of_mem _ List.mem_cons_self, rfl, rfl, rfl⟩

end Inventory

end StagedArrays
