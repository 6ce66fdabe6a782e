import StagedArrays.Proofs.Graph.Exact
import StagedArrays.Proofs.Graph.Fresh

namespace StagedArrays

/-- What a variable stands for: a type, extents, and the elements in row-major
    order. -/
structure Tensor where
  dtype : DType
  extents : List Nat
  elements : List Numeric
  deriving DecidableEq

namespace Tensor

/-- The elements of a right operand. The one of rank 0 stands for each of so
    many. -/
def spread (tensor : Tensor) (count : Nat) : List Numeric :=
  if tensor.extents = [] then tensor.elements.flatMap (List.replicate count) else tensor.elements

/-- `lhs op rhs`, element by element. The types have to be equal, and the right
    side of rank 0 or of the extents of the left. -/
def binary (op : BinaryOp) (lhs rhs : Tensor) : Option Tensor :=
  if lhs.dtype = rhs.dtype ∧ (rhs.extents = [] ∨ rhs.extents = lhs.extents) then
    match (lhs.elements.zip (rhs.spread lhs.elements.length)).mapM fun (x, y) => x.binary op y with
    | .ok elements => some ⟨lhs.dtype, lhs.extents, elements⟩
    | .error _ => none
  else none

/-- When two tensors have a combination, and what it is. A second operand of
    rank 0 is spread over the first. -/
theorem binary_eq_some_iff {op : BinaryOp} {lhs rhs tensor : Tensor} : lhs.binary op rhs = some tensor ↔
    (lhs.dtype = rhs.dtype ∧ (rhs.extents = [] ∨ rhs.extents = lhs.extents)) ∧ tensor.dtype = lhs.dtype ∧
      tensor.extents = lhs.extents ∧
      ((lhs.elements.zip (rhs.spread lhs.elements.length)).mapM fun (x, y) => x.binary op y) = .ok tensor.elements := by
  obtain ⟨dtype, extents, elements⟩ := tensor
  unfold binary
  split
  · next hfits =>
    cases (lhs.elements.zip (rhs.spread lhs.elements.length)).mapM fun (x, y) => x.binary op y with
    | error cause => exact ⟨nofun, fun h => nomatch h.2.2.2⟩
    | ok found =>
      simp only [Option.some.injEq, mk.injEq, Except.ok.injEq, hfits, true_and]
      exact ⟨fun ⟨hdtype, hextents, helements⟩ => ⟨hdtype.symm, hextents.symm, helements⟩,
        fun ⟨hdtype, hextents, helements⟩ => ⟨hdtype.symm, hextents.symm, helements⟩⟩
  · next hfits => exact ⟨nofun, fun h => (hfits h.1).elim⟩

/-- Two tensors that repeat one element each make one that repeats what the
    elements make. -/
theorem binary_replicate {op : BinaryOp} {dtype : DType} {extents : List Nat} (hextents : extents ≠ []) {x y z : Numeric}
    (h : x.binary op y = .ok z) (count : Nat) :
    (⟨dtype, extents, List.replicate count x⟩ : Tensor).binary op ⟨dtype, extents, List.replicate count y⟩ =
      some ⟨dtype, extents, List.replicate count z⟩ := by
  refine binary_eq_some_iff.mpr ⟨⟨rfl, .inr rfl⟩, rfl, rfl, ?_⟩
  have hpairs : ∀ pair ∈ List.replicate count (x, y), pair.1.binary op pair.2 = .ok z :=
    fun pair hmem => (List.eq_of_mem_replicate hmem).symm ▸ h
  rw [spread, if_neg hextents, List.zip_replicate', mapM_eq_replicate hpairs, List.length_replicate]

end Tensor

/-- A variable stands for a tensor. Type, extents and elements agree, wherever
    the elements are. -/
structure Variable.Holds (heap : Heap) (v : Variable) (tensor : Tensor) : Prop where
  dtype_eq : v.dtype = tensor.dtype
  extents_eq : v.layout.extents = tensor.extents
  elements_eq : v.elements heap = .ok tensor.elements

/-- The recursive evaluation of a graph: a literal stands for what it holds, an
    operation for what it makes of its operands. -/
inductive Graph.Evaluates (heap : Heap) (graph : Graph Node) : NodeId → Tensor → Prop
  | literal {id : NodeId} {entry : GraphEntry Node} {value : Variable} {tensor : Tensor}
    (hentry : graph.entries[id.index]? = some entry) (hnode : entry.node = .literal value) (hholds : value.Holds heap tensor) :
    Evaluates heap graph id tensor
  | binary {id : NodeId} {entry : GraphEntry Node} {node : BinaryNode} {lhs rhs tensor : Tensor}
    (hentry : graph.entries[id.index]? = some entry) (hnode : entry.node = .binary node)
    (hlhs : Evaluates heap graph node.lhs lhs) (hrhs : Evaluates heap graph node.rhs rhs)
    (htensor : lhs.binary node.op rhs = some tensor) : Evaluates heap graph id tensor

section Zip

variable {ε α β γ δ : Type} {f : α → Except ε β} {g : α → Except ε γ} (h : β → γ → Except ε δ) {xs : List α} {ys : List β}
  {zs : List γ}

/-- Combining what two lists of outcomes give is combining the outcomes one by
    one. -/
theorem mapM_bind_zip (hf : List.Forall₂ (fun x y => f x = .ok y) xs ys) (hg : List.Forall₂ (fun x z => g x = .ok z) xs zs) :
    (xs.mapM fun x => do h (← f x) (← g x)) = (ys.zip zs).mapM fun (y, z) => h y z := by
  induction hf generalizing zs with
  | nil => rfl
  | cons hx _ ih =>
    obtain ⟨z, zs, hz, hzs, rfl⟩ := List.forall₂_cons_left_iff.mp hg
    rw [List.mapM_cons, List.zip_cons_cons, List.mapM_cons, hx, hz, ok_bind, ok_bind, ih hzs]

end Zip

namespace Variable

variable {heap other : Heap} {v lhs rhs : Variable} {op : BinaryOp}

/-- An immediate or storage of the host, of no more elements than storage of its
    type can hold in a row. An increment of zero lets a view of one element have
    more. -/
structure Plain (v : Variable) : Prop where
  direct : (∃ x, v.value.data = .constant x) ∨ ∃ ref offset, v.value.data = .host ref offset
  packed : ∃ layout, v.layout.packedFor v.dtype = .ok layout

/-- A variable holds at most one tensor. -/
theorem Holds.unique {tensor tensor' : Tensor} (h : v.Holds heap tensor) (h' : v.Holds heap tensor') : tensor' = tensor := by
  obtain ⟨hdtype, hextents, helements⟩ := h
  obtain ⟨hdtype', hextents', helements'⟩ := h'
  obtain ⟨dtype, extents, elements⟩ := tensor
  obtain ⟨dtype', extents', elements'⟩ := tensor'
  simp only at hdtype hextents helements hdtype' hextents' helements'
  cases hdtype.symm.trans hdtype'
  cases hextents.symm.trans hextents'
  cases helements.symm.trans helements'
  rfl

theorem holds_elements {xs : List Numeric} (h : v.elements heap = .ok xs) : v.Holds heap ⟨v.dtype, v.layout.extents, xs⟩ :=
  ⟨rfl, rfl, h⟩

/-- A variable of rank 0 has one element. It is the number that the variable
    holds. -/
theorem elements_of_rank_zero (hsound : v.value.Sound heap) (hrank : v.layout.rank = 0) :
    v.elements heap = (v.value.held heap).map ([·]) := by
  have hextents : v.layout.extents = [] := List.length_eq_zero_iff.mp hrank
  have hrow : Layout.rowMajor [] = [[]] := rfl
  rw [elements, hextents, hrow, List.mapM_cons, List.mapM_nil, Value.peek_nil hsound hrank]
  cases v.value.held heap <;> rfl

theorem elements_congr (hsound : v.value.Sound heap) (halike : v.value.Alike heap other) :
    v.elements other = v.elements heap :=
  mapM_congr fun coordinates _ => Value.peek_congr hsound halike coordinates

theorem Holds.of_alike {tensor : Tensor} (h : v.Holds heap tensor) (hsound : v.value.Sound heap)
    (halike : v.value.Alike heap other) : v.Holds other tensor :=
  ⟨h.dtype_eq, h.extents_eq, (elements_congr hsound halike).trans h.elements_eq⟩

/-- A plain value can be read where its coordinates can. There is nothing else
    about it that may fail. -/
theorem Plain.exists_elements (h : v.Plain) (hsound : v.value.Sound heap)
    (hindices : ∀ coordinates ∈ Layout.rowMajor v.layout.extents, Scalar.indices coordinates = .ok coordinates) :
    ∃ xs, v.elements heap = .ok xs := by
  rcases h.direct with ⟨x, hdata⟩ | ⟨ref, offset, hdata⟩
  · have hrank : v.layout.ensureRank 0 = .ok () := by
      have hmade := hsound.made
      simp only [hdata, Value.make] at hmade
      split at hmade
      · cases hmade
      · obtain ⟨_, hrank, -⟩ := bind_eq_ok_iff.mp hmade
        exact liftM_layoutError_eq_ok_iff.mp hrank
    have hheld : v.value.held heap = .ok x := by
      rw [Value.held, hdata, show v.value.layout.ensureRank 0 = _ from hrank]
      rfl
    rw [elements_of_rank_zero hsound (Layout.ensureRank_eq_ok.mp hrank), hheld]
    exact ⟨[x], rfl⟩
  · refine exists_mapM fun coordinates hmem => ?_
    have hin := Layout.mem_rowMajor.mp hmem
    obtain ⟨-, size, hsize, -, hle⟩ := hsound.host hdata
    have hlt := Layout.place_lt_memorySize hsize hin
    obtain ⟨x, hx, -⟩ := HostBuffer.exists_get? (Nat.lt_of_lt_of_le (Nat.add_lt_add_left hlt offset) hle)
    exact ⟨x, Value.peek_host hsound hdata (hindices coordinates hmem) hin hx⟩

/-- The coordinates of a plain value that can be read are read as themselves. -/
theorem Plain.indices_of_elements (h : v.Plain) {xs : List Numeric} (hxs : v.elements heap = .ok xs) :
    ∀ coordinates ∈ Layout.rowMajor v.layout.extents, Scalar.indices coordinates = .ok coordinates := by
  intro coordinates hmem
  obtain ⟨layout, hpacked⟩ := h.packed
  obtain ⟨size, hpacks⟩ := Layout.packed_eq_ok (Layout.packedFor_eq_ok_iff.mp hpacked).1
  obtain ⟨x, hx⟩ := exists_of_mapM hxs hmem
  obtain ⟨item, hitem, -⟩ := bind_eq_ok_iff.mp hx
  obtain ⟨found, hfound⟩ := Value.exists_indices_of_elementAt hitem
  rwa [Scalar.eq_of_indices (hpacks.lt_bound_of_inBounds (Layout.mem_rowMajor.mp hmem)) hfound] at hfound

/-- Two operands give what the tensors give that they stand for. A right operand
    of rank 0 is combined with every element. -/
theorem combination_eq {a b : Tensor} (hsound : rhs.value.Sound heap) (ha : lhs.Holds heap a) (hb : rhs.Holds heap b)
    (hfits : b.extents = [] ∨ b.extents = a.extents) :
    combination heap op lhs rhs = (a.elements.zip (b.spread a.elements.length)).mapM fun (x, y) =>
      (liftM (x.binary op y) : Outcome Numeric) := by
  have hlhs := mapM_eq_ok_iff.mp ha.elements_eq
  have hrhs : List.Forall₂ (fun coordinates y => rhs.value.peekSource heap coordinates = .ok y)
      (Layout.rowMajor lhs.layout.extents) (b.spread a.elements.length) := by
    by_cases hrank : b.extents = []
    · have hrank' : rhs.layout.rank = 0 := by rw [Layout.rank, hb.extents_eq, hrank]; rfl
      have helements := hb.elements_eq
      rw [elements_of_rank_zero hsound hrank'] at helements
      cases hheld : rhs.value.held heap with
      | error failure =>
        rw [hheld] at helements
        cases helements
      | ok y =>
        rw [hheld] at helements
        have hone : b.elements = [y] := (Except.ok.inj helements).symm
        have hspread : b.spread a.elements.length = List.replicate a.elements.length y := by
          rw [Tensor.spread, if_pos hrank, hone]
          exact List.append_nil _
        have hzero : rhs.value.rank = 0 := hrank'
        have hpeek (coordinates : List Nat) : rhs.value.peekSource heap coordinates = .ok y := by
          rw [Value.peekSource, Value.sourceAt, if_pos hzero, ok_bind, hheld]
        rw [hspread, ← hlhs.length_eq]
        exact List.forall₂_iff_get.mpr ⟨List.length_replicate.symm, fun index _ _ => by simp [hpeek]⟩
    · have hextents : rhs.layout.extents = lhs.layout.extents := by
        rw [hb.extents_eq, ha.extents_eq, hfits.resolve_left hrank]
      have hrank' : rhs.value.rank ≠ 0 := fun hzero => hrank (hb.extents_eq ▸ List.length_eq_zero_iff.mp hzero)
      rw [Tensor.spread, if_neg hrank, ← hextents]
      refine (mapM_eq_ok_iff.mp hb.elements_eq).imp fun coordinates y hy => ?_
      rw [Value.peekSource, Value.sourceAt, if_neg hrank']
      exact hy
  rw [combination, ha.elements_eq, ok_bind]
  exact mapM_bind_zip (fun x y => (liftM (x.binary op y) : Outcome Numeric)) hlhs hrhs

/-- A node computes just what the tensors give that its operands stand for. So
    an operation that comes to a result has a value. -/
theorem exists_of_product (hlhs : lhs.Plain) (hrhs : rhs.Plain) (hsound : rhs.value.Sound heap) {xs : List Numeric}
    (h : BinaryNode.product heap op lhs rhs = .ok xs) :
    ∃ a b, lhs.Holds heap a ∧ rhs.Holds heap b ∧ a.binary op b = some ⟨lhs.dtype, lhs.layout.extents, xs⟩ := by
  obtain ⟨hchecked, hcombination⟩ := BinaryNode.product_eq_ok_iff.mp h
  obtain ⟨hdtype, hfits⟩ := BinaryNode.checkOperands_eq_ok_iff.mp hchecked
  obtain ⟨ys, hys, -⟩ := bind_eq_ok_iff.mp hcombination
  have hindices : ∀ coordinates ∈ Layout.rowMajor rhs.layout.extents, Scalar.indices coordinates = .ok coordinates := by
    rcases hfits with hrank | hextents
    · have hextents : rhs.layout.extents = [] := List.length_eq_zero_iff.mp hrank
      rw [hextents]
      intro coordinates hmem
      obtain rfl : coordinates = [] := List.mem_singleton.mp hmem
      rfl
    · rw [hextents]
      exact hlhs.indices_of_elements hys
  obtain ⟨zs, hzs⟩ := hrhs.exists_elements hsound hindices
  let a : Tensor := ⟨lhs.dtype, lhs.layout.extents, ys⟩
  let b : Tensor := ⟨rhs.dtype, rhs.layout.extents, zs⟩
  have hfits' : b.extents = [] ∨ b.extents = a.extents := hfits.imp_left List.length_eq_zero_iff.mp
  refine ⟨a, b, holds_elements hys, holds_elements hzs, Tensor.binary_eq_some_iff.mpr ⟨⟨hdtype, hfits'⟩, rfl, rfl, ?_⟩⟩
  rw [combination_eq hsound (holds_elements hys) (holds_elements hzs) hfits', mapM_eq_ok_iff] at hcombination
  exact mapM_eq_ok_iff.mpr (hcombination.imp fun _ _ => liftM_error_eq_ok_iff.mp)

/-- Where the tensors of two sound variables have a combination, the elements
    that a node computes from the variables are those of the combined tensor. -/
theorem product_of_binary {a b tensor : Tensor} (hsound : rhs.value.Sound heap) (ha : lhs.Holds heap a) (hb : rhs.Holds heap b)
    (h : a.binary op b = some tensor) : BinaryNode.product heap op lhs rhs = .ok tensor.elements := by
  obtain ⟨⟨hdtype, hfits⟩, -, -, helements⟩ := Tensor.binary_eq_some_iff.mp h
  refine BinaryNode.product_eq_ok_iff.mpr ⟨BinaryNode.checkOperands_eq_ok_iff.mpr ⟨?_, ?_⟩, ?_⟩
  · rw [ha.dtype_eq, hb.dtype_eq, hdtype]
  · rw [Layout.rank, hb.extents_eq, ha.extents_eq]
    exact hfits.imp_left List.length_eq_zero_iff.mpr
  · rw [combination_eq hsound ha hb hfits, mapM_eq_ok_iff]
    exact (mapM_eq_ok_iff.mp helements).imp fun _ _ => liftM_error_eq_ok_iff.mpr

end Variable

end StagedArrays
