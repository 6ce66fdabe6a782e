import StagedArrays.Proofs.Algebra.Folding
import StagedArrays.Proofs.Kernel.Interleaved

namespace StagedArrays

namespace Numeric

/-- A sum of immediates that starts from the zero of their type, perhaps several
    times over, and takes in each of its terms once. -/
inductive Sums (dtype : DType) : List Numeric → Numeric → Prop where
  | zero : Sums dtype [] (.zero dtype)
  | term {xs : List Numeric} {a c : Numeric} (ha : Sums dtype xs a) (x : Numeric) (hc : a.binary .add x = .ok c) :
      Sums dtype (xs ++ [x]) c
  | add {xs ys : List Numeric} {a b c : Numeric} (ha : Sums dtype xs a) (hb : Sums dtype ys b) (hc : a.binary .add b = .ok c) :
      Sums dtype (xs ++ ys) c
  | perm {xs ys : List Numeric} {a : Numeric} (hperm : xs.Perm ys) (ha : Sums dtype xs a) : Sums dtype ys a

/-- A fold goes on with a sum. Each further term is added on the right. -/
theorem Sums.fold {dtype : DType} {terms : List Numeric} {sum total : Numeric} (h : Sums dtype terms sum) {rest : List Numeric}
    (htotal : sum.fold (rest.map .ok) = .ok total) : Sums dtype (terms ++ rest) total := by
  induction rest generalizing terms sum with
  | nil =>
    cases htotal
    simpa using h
  | cons term rest ih =>
    rw [Numeric.fold, List.map_cons, List.foldlM_cons, ok_bind] at htotal
    obtain ⟨next, hnext, htotal⟩ := bind_eq_ok_iff.mp htotal
    simpa using ih (h.term term hnext) htotal

end Numeric

namespace Value

variable {heap : Heap} {value : Value} {xs : List Numeric}

/-- All elements of a sound value have its type. Storage is of one type
    throughout. -/
theorem dtype_of_elements (h : value.Sound heap) (hxs : value.elements heap = .ok xs) : ∀ x ∈ xs, x.dtype = value.dtype := by
  intro x hx
  obtain ⟨index, hlt, rfl⟩ := List.getElem_of_mem hx
  have helements := mapM_eq_ok_iff.mp hxs
  exact dtype_of_peek h (helements.get (helements.length_eq ▸ hlt) hlt)

theorem length_of_elements (hxs : value.elements heap = .ok xs) : xs.length = value.layout.extents.prod := by
  rw [← (mapM_eq_ok_iff.mp hxs).length_eq, Layout.length_rowMajor]

end Value

namespace DotArithmetic

variable {α : Type}

/-- The words that a kernel computes with stand for the immediates of a type.
    Its operations are those of the immediates. -/
structure Represents (arithmetic : DotArithmetic α) (dtype : DType) (read : Numeric → α) (write : α → Numeric) : Prop where
  dtype_write : ∀ a, (write a).dtype = dtype
  write_zero : write arithmetic.zero = .zero dtype
  write_read : ∀ x : Numeric, x.dtype = dtype → write (read x) = x
  add_eq : ∀ a b, (write a).binary .add (write b) = .ok (write (arithmetic.add a b))
  mul_eq : ∀ a b, (write a).binary .mul (write b) = .ok (write (arithmetic.mul a b))
  bytes_eq : arithmetic.bytes = dtype.size

/-- The words of singles stand for immediates of that type, and no operation on
    them fails. -/
theorem represents_single : single.Represents .f32 Numeric.singleWord .f32 where
  dtype_write _ := rfl
  write_zero := rfl
  write_read x hx := by cases x <;> cases hx; rfl
  add_eq _ _ := rfl
  mul_eq _ _ := rfl
  bytes_eq := rfl

/-- The same for doubles. For the half formats there is no kernel. -/
theorem represents_double : double.Represents .f64 Numeric.doubleWord .f64 where
  dtype_write _ := rfl
  write_zero := rfl
  write_read x hx := by cases x <;> cases hx; rfl
  add_eq _ _ := rfl
  mul_eq _ _ := rfl
  bytes_eq := rfl

variable {arithmetic : DotArithmetic α} {dtype : DType} {read : Numeric → α} {write : α → Numeric}

namespace Represents

/-- A sum of words is a sum of the immediates they stand for, of the same terms
    in the same order and grouping. -/
theorem sums (h : arithmetic.Represents dtype read write) {terms : List α} {sum : α} (hsums : arithmetic.Sums terms sum) :
    Numeric.Sums dtype (terms.map write) (write sum) := by
  induction hsums with
  | zero => exact h.write_zero ▸ .zero
  | term _ x ih =>
    rw [List.map_append]
    exact ih.term (write x) (h.add_eq _ _)
  | add _ _ iha ihb =>
    rw [List.map_append]
    exact .add iha ihb (h.add_eq _ _)
  | perm hperm _ ih => exact .perm (hperm.map write) ih

/-- No product of floats is missing. -/
theorem zipWith_mul (h : arithmetic.Represents dtype read write) {xs ys : List Numeric} (hxs : ∀ x ∈ xs, x.dtype = dtype)
    (hys : ∀ y ∈ ys, y.dtype = dtype) :
    List.zipWith (fun x y => x.binary .mul y) xs ys =
      ((arithmetic.products (xs.map read) (ys.map read)).map write).map Except.ok := by
  induction xs generalizing ys with
  | nil => rfl
  | cons x xs ih =>
    cases ys with
    | nil => rfl
    | cons y ys =>
      have hx := h.write_read x (hxs x List.mem_cons_self)
      have hy := h.write_read y (hys y List.mem_cons_self)
      have hmul := h.mul_eq (read x) (read y)
      rw [hx, hy] at hmul
      rw [List.zipWith_cons_cons, hmul, ih (fun z hz => hxs z (List.mem_cons_of_mem x hz))
        fun z hz => hys z (List.mem_cons_of_mem y hz)]
      rfl

/-- No sum of floats is missing. -/
theorem exists_fold (h : arithmetic.Represents dtype read write) (terms : List α) (start : α) :
    ∃ total, (write start).fold ((terms.map write).map .ok) = .ok (write total) := by
  induction terms generalizing start with
  | nil => exact ⟨start, rfl⟩
  | cons term terms ih =>
    obtain ⟨total, htotal⟩ := ih (arithmetic.add start term)
    refine ⟨total, ?_⟩
    rw [← htotal, Numeric.fold, List.map_cons, List.map_cons, List.foldlM_cons, ok_bind, h.add_eq, ok_bind]
    rfl

end Represents

variable [ArrayLibrary]

/-- A view that lies inside the data is gathered. The library has to grant it,
    as it is known to do for such views. -/
theorem view_eq_ok (hlawful : ArrayLibrary.Lawful) {count increment : Nat} {data : Array α} (hincrement : 0 < increment)
    (hbytes : data.size * arithmetic.bytes < Word.bound / 2)
    (hinside : 0 < count → (count - 1) * increment < data.size) :
    arithmetic.view count increment data = .ok (.ofSlice count increment data) := by
  rw [view, if_neg (by omega), if_neg (by omega)]
  simp only [Int.toNat_natCast, hlawful.grant_eq_ok hincrement hbytes hinside]

/-- A view with an increment of zero is not offered. The library is not asked
    for it. -/
theorem view_of_increment_zero (count : Nat) (data : Array α) :
    arithmetic.view count 0 data = .error (.notImplemented (.dotIncrement 0)) := by
  rw [view, if_neg (by omega), if_pos (Int.le_refl 0)]

/-- Two views that can be gathered are multiplied as the library documents
    it. -/
theorem exists_dot (hlawful : ArrayLibrary.Lawful) {count xIncrement yIncrement : Nat} {xs ys : Array α}
    {x y : StridedView α} (hx : arithmetic.view count xIncrement xs = .ok x)
    (hy : arithmetic.view count yIncrement ys = .ok y) (hlength : x.elements.length = y.elements.length) :
    ∃ total, arithmetic.dot count xs xIncrement ys yIncrement = .ok total ∧
      arithmetic.Sums (arithmetic.products x.elements y.elements) total := by
  rw [dot, hx, hy, ok_bind, ok_bind]
  exact ⟨_, rfl, hlawful.sums_dot arithmetic hlength⟩

end DotArithmetic

/-- Related lists are related by anything that follows for the members of the
    first. -/
theorem forall₂_of_mem {α β : Type} {r s : α → β → Prop} {as : List α} {bs : List β} (h : List.Forall₂ r as bs)
    (himp : ∀ a ∈ as, ∀ b, r a b → s a b) : List.Forall₂ s as bs := by
  induction h with
  | nil => exact .nil
  | cons hr _ ih =>
    exact .cons (himp _ List.mem_cons_self _ hr) (ih fun a ha => himp a (List.mem_cons_of_mem _ ha))

theorem filterMap_eq_of_forall₂ {α β : Type} {f : α → Option β} {as : List α} {bs : List β}
    (h : List.Forall₂ (fun a b => f a = some b) as bs) : as.filterMap f = bs := by
  induction h with
  | nil => rfl
  | cons hb _ ih => rw [List.filterMap_cons_some hb, ih]

theorem Layout.rowMajor_singleton (extent : Nat) : rowMajor [extent] = (List.range extent).map fun index => [index] := by
  simp [rowMajor, List.map_eq_flatMap]

namespace Vector

variable {α : Type} {heap : Heap} {v w : Vector} {ref : HostRef} {offset count increment : Nat}

/-- The part of a buffer that a vector begins, as a kernel is given it. Offsets
    of values never lie beyond the end. -/
theorem elementsFrom_eq_ok (hfits : v.value.Fits heap) (hdata : v.value.data = .host ref offset) :
    (heap.get ref).elementsFrom v.dtype offset = .ok ((heap.get ref).elements.extract offset (heap.get ref).elements.size) := by
  obtain ⟨hdtype, size, -, hle⟩ := hfits.host_eq hdata
  have hdtype : (heap.get ref).dtype = v.dtype := hdtype
  rw [HostBuffer.elementsFrom, HostBuffer.elementsOf, if_pos hdtype, ok_bind, if_neg]
  exact Nat.not_lt_of_le (Nat.le_trans (Nat.le_add_right offset size) hle)

/-- A kernel gathers the elements of a vector, in order. Its layout leads to the
    same places as the increment of the view. -/
theorem elements_ofSlice (hfits : v.value.Fits heap) (hdata : v.value.data = .host ref offset)
    (hlayout : v.value.layout = ⟨[count], [increment]⟩)
    (hsigned : Word.Signed count) {xs : List Numeric} (hxs : v.value.elements heap = .ok xs) (read : Numeric → α) :
    (StridedView.ofSlice count increment
      (((heap.get ref).elements.extract offset (heap.get ref).elements.size).map read)).elements = xs.map read := by
  rw [Value.elements, hlayout, Layout.rowMajor_singleton, mapM_eq_ok_iff, List.forall₂_map_left_iff] at hxs
  apply filterMap_eq_of_forall₂
  rw [List.forall₂_map_right_iff]
  refine forall₂_of_mem hxs fun index hmem x hx => ?_
  have hlt := List.mem_range.mp hmem
  have hin : Layout.InBounds [index] v.value.layout.extents := hlayout ▸ .cons hlt .nil
  have hindices : Scalar.indices [index] = .ok [index] :=
    Scalar.indices_of_signed (List.forall_mem_singleton.mpr (hsigned.mono (Nat.le_of_lt hlt)))
  obtain ⟨y, hy, hget⟩ := hfits.sound.exists_peek hdata hindices hin
  obtain rfl : x = y := Except.ok.inj (hx.symm.trans hy)
  have hplace : v.value.layout.place [index] = index * increment := by
    simp [Layout.place, hlayout]
  rw [hplace] at hget
  have hroom : offset + index * increment < (heap.get ref).elements.size := (Array.getElem?_eq_some_iff.mp hget).1
  rw [HostBuffer.get?] at hget
  rw [Array.getElem?_map, Array.getElem?_extract, if_pos (by omega), hget]
  rfl

/-- A kernel can view a vector whose storage exists, if its elements have
    distances. -/
theorem view_eq_ok [ArrayLibrary] (hlawful : ArrayLibrary.Lawful) {arithmetic : DotArithmetic α} (read : Numeric → α) (hbytes : arithmetic.bytes = v.dtype.size)
    (hfits : v.value.Fits heap) (hdata : v.value.data = .host ref offset) (hlayout : v.value.layout = ⟨[count], [increment]⟩)
    (hroom : v.dtype.reserve (heap.get ref).length = .ok ()) (hincrement : 0 < increment) :
    arithmetic.view count increment (((heap.get ref).elements.extract offset (heap.get ref).elements.size).map read) =
      .ok (.ofSlice count increment
        (((heap.get ref).elements.extract offset (heap.get ref).elements.size).map read)) := by
  obtain ⟨-, size, hsize, hle⟩ := hfits.host_eq hdata
  have hlength : (heap.get ref).elements.size = (heap.get ref).length := rfl
  have hlast : 0 < count → offset + (count - 1) * increment < (heap.get ref).length := by
    intro hpos
    have hin : Layout.InBounds [count - 1] v.value.layout.extents := hlayout ▸ .cons (by omega) .nil
    have hlt := Layout.place_lt_memorySize hsize hin
    have hplace : v.value.layout.place [count - 1] = (count - 1) * increment := by
      simp [Layout.place, hlayout]
    omega
  apply DotArithmetic.view_eq_ok hlawful hincrement
  · have hsmall : (heap.get ref).length * v.dtype.size < Word.bound / 2 := by
      by_contra hlarge
      rw [DType.reserve, if_neg hlarge] at hroom
      cases hroom
    rw [Array.size_map, Array.size_extract, hbytes, Nat.min_self, hlength]
    exact Nat.lt_of_le_of_lt (Nat.mul_le_mul_right _ (Nat.sub_le _ _)) hsmall
  · intro hpos
    have hlast := hlast hpos
    rw [Array.size_map, Array.size_extract]
    omega

/-- A vector with few enough elements for a kernel has a size, which is its only
    extent. -/
theorem size_of_layout (hlayout : v.value.layout = ⟨[count], [increment]⟩) (hcount : (count : Int) ≤ Int32.maxValue.toInt) :
    v.size = .ok count := by
  have hmax : Int32.maxValue.toInt = 2147483647 := by decide
  have hbound : count < Word.bound := by
    rw [Word.bound, UInt64.size]
    omega
  rw [size_eq (v := v) (by rw [hlayout]), Word.mul_eq_ok_iff, Nat.one_mul]
  exact ⟨rfl, hbound⟩

section Kernel

variable [ArrayLibrary] {σ : Type} {world : World σ} {arithmetic : DotArithmetic α} {dtype : DType} {read : Numeric → α} {write : α → Numeric}
  {symbol : String} {refW : HostRef} {offsetW incrementW : Nat}

/-- An inner product by a kernel reads the two vectors where they lie, and
    changes nothing. -/
theorem runFrom_dotByKernel (hrepresents : arithmetic.Represents dtype read write)
    (hcontext : world.contexts.head? = some .compute) (hdtype : v.dtype = dtype) (hdtypeW : w.dtype = dtype)
    (hdata : v.value.data = .host ref offset) (hdataW : w.value.data = .host refW offsetW)
    (hlayout : v.value.layout = ⟨[count], [increment]⟩) (hlayoutW : w.value.layout = ⟨[count], [incrementW]⟩)
    (hcount : (count : Int) ≤ Int32.maxValue.toInt) (hincrement : (increment : Int) ≤ Int32.maxValue.toInt)
    (hincrementW : (incrementW : Int) ≤ Int32.maxValue.toInt) :
    (v.dotByKernel symbol (vendorDot arithmetic dtype read write) w).runFrom world =
      ((liftM (arithmetic.ofBuffers dtype read count (world.heap.get ref) offset increment (world.heap.get refW) offsetW
        incrementW) : Outcome α).map fun z => .ofNumeric (write z), world) := by
  have hvalue {n : Nat} (h : (n : Int) ≤ Int32.maxValue.toInt) :
      ∃ i : Int32, countValue n = .ok (.constant (.i32 i)) ∧ i.toInt = n := by
    have hcounted : countValue n = .ok (.constant (.i32 (.ofNat n))) := if_pos h
    obtain ⟨i, hi, heq⟩ := countValue_eq_ok.mp hcounted
    exact ⟨i, by rw [hcounted, heq], hi⟩
  obtain ⟨i, hi, hicount⟩ := hvalue hcount
  obtain ⟨j, hj, hjcount⟩ := hvalue hincrement
  obtain ⟨k, hk, hkcount⟩ := hvalue hincrementW
  have hgiven : Direct.hostArguments [.constant (.i32 i), v.value, .constant (.i32 j), w.value, .constant (.i32 k)] =
      .ok [.scalar (.i32 i), .buffer ref offset, .scalar (.i32 j), .buffer refW offsetW, .scalar (.i32 k)] := by
    have hv : Direct.hostArgument v.value = .ok (.buffer ref offset) := by rw [Direct.hostArgument, hdata]
    have hw : Direct.hostArgument w.value = .ok (.buffer refW offsetW) := by rw [Direct.hostArgument, hdataW]
    rw [Direct.hostArguments, List.mapM_cons, List.mapM_cons, List.mapM_cons, List.mapM_cons, hv, hw]
    rfl
  have hcheck : (kernelDeclaration .compute symbol (vendorDot arithmetic dtype read write) v w).checkArguments
      [.constant (.i32 i), v.value, .constant (.i32 j), w.value, .constant (.i32 k)] = .ok () := by
    have hpointer {u : Vector} {other : HostRef} {start : Nat} (hdata : u.value.data = .host other start)
        (hdtype : u.dtype = v.dtype) : (ValueType.pointer v.dtype u.value.layout).check u.value = .ok () := by
      refine ValueType.check_of_admits ⟨hdtype, ?_, rfl⟩
      rw [Value.pointerLevel, Value.isAddressable, hdata]
      rfl
    have hscalar (n : Int32) : (ValueType.scalar .i32).check (.constant (.i32 n)) = .ok () := rfl
    have hv := hpointer hdata rfl
    have hw := hpointer hdataW (hdtypeW.trans hdtype.symm)
    simp only [FunctionDeclaration.checkArguments, kernelDeclaration, FunctionDeclaration.checkEach, hscalar, hv, hw, ok_bind,
      List.length_cons, List.length_nil, ne_eq, not_true, if_false]
  have hrun := runFrom_vendorDot arithmetic dtype read write i j k ref refW offset offsetW world.heap
  rw [hicount, hjcount, hkcount] at hrun
  have hcall := runFrom_callIn_kernel (fun z => (hrepresents.dtype_write z).trans hdtype.symm) hcheck
    (runFrom_callKernel hgiven hrun)
  have hsize : v.size = .ok count := size_of_layout hlayout hcount
  have hincrements : v.value.layout.increment 0 = .ok increment ∧ w.value.layout.increment 0 = .ok incrementW := by
    rw [hlayout, hlayoutW]
    exact ⟨rfl, rfl⟩
  rw [dotByKernel, Stateful.runFrom_bind_of_ok (runFrom_size hsize world)]
  simp only [hi, hincrements.1, hj, hincrements.2, hk, Stateful.runFrom_bind, Stateful.runFrom_liftM, liftM_error_ok,
    liftM_layoutError_ok, Action.runFrom_activeContext hcontext]
  rw [show Context.compute.kind = .compute from rfl, hcall]
  cases (liftM (arithmetic.ofBuffers dtype read count (world.heap.get ref) offset increment (world.heap.get refW) offsetW
    incrementW) : Outcome α) <;> rfl

end Kernel

/-- A vector on the host with so many elements so far apart, in storage that
    exists: no allocation has more bytes than a signed word counts. -/
structure Spaced (heap : Heap) (v : Vector) (count increment : Nat) : Prop where
  hosted : v.value.Hosted heap
  layout_eq : v.value.layout = ⟨[count], [increment]⟩
  count_le : (count : Int) ≤ Int32.maxValue.toInt
  increment_le : (increment : Int) ≤ Int32.maxValue.toInt
  room : ∀ ref offset, v.value.data = .host ref offset → v.dtype.reserve (heap.get ref).length = .ok ()

/-- Which kernel multiplies floats. There is one for either width, and both are
    one definition. -/
theorem exists_kernel [ArrayLibrary] (hdtype : v.dtype = .f32 ∨ v.dtype = .f64) :
    ∃ (α : Type) (arithmetic : DotArithmetic α) (read : Numeric → α) (write : α → Numeric) (symbol : String),
      arithmetic.Represents v.dtype read write ∧ ∀ {σ : Type} (w : Vector),
        (v.dotByType w : Action σ Scalar) = v.dotByKernel symbol (vendorDot arithmetic v.dtype read write) w := by
  rcases hdtype with hdtype | hdtype
  · refine ⟨_, .single, Numeric.singleWord, .f32, Kernel.singleDotSymbol, hdtype ▸ DotArithmetic.represents_single, fun w => ?_⟩
    rw [dotByType, hdtype]
    rfl
  · refine ⟨_, .double, Numeric.doubleWord, .f64, Kernel.doubleDotSymbol, hdtype ▸ DotArithmetic.represents_double, fun w => ?_⟩
    rw [dotByType, hdtype]
    rfl

namespace Spaced

/-- The count of a spaced vector is also a coordinate that can be read back.
    Kernels count with fewer bits than coordinates have. -/
theorem signed (h : v.Spaced heap count increment) : Word.Signed count := by
  have hmax : Int32.maxValue.toInt = 2147483647 := by decide
  have hle := h.count_le
  rw [Word.signed_iff]
  omega

theorem size_eq (h : v.Spaced heap count increment) : v.size = .ok count := size_of_layout h.layout_eq h.count_le

/-- The elements of a spaced vector can be read. There are as many as the vector
    has coordinates. -/
theorem exists_elements (h : v.Spaced heap count increment) : ∃ xs, v.value.elements heap = .ok xs ∧ xs.length = count := by
  have hprod : v.value.layout.extents.prod = count := by simp [h.layout_eq]
  obtain ⟨xs, hxs⟩ := h.hosted.exists_elements (hprod ▸ h.signed)
  exact ⟨xs, hxs, (Value.length_of_elements hxs).trans hprod⟩

/-- Two spaced vectors of one type can be multiplied by the loop. Their
    increments do not matter there. -/
theorem takes {incrementW : Nat} (hv : v.Spaced heap count increment) (hw : w.Spaced heap count incrementW)
    (hsame : w.dtype = v.dtype) : (Reduction.dotByLoop v w).Takes heap := by
  refine ⟨hv.hosted, ?_, hw.hosted, hw.size_eq.trans hv.size_eq.symm, hsame⟩
  have hextents : v.value.layout.extents = [count] := by rw [hv.layout_eq]
  refine ⟨⟨[count], [1]⟩, ?_⟩
  rw [Reduction.visited, Layout.contiguous, hextents]
  exact packed_of_size hv.size_eq hextents

/-- The elements of two vectors are multiplied by the kernel, in some order,
    unless one of them repeats its first element. -/
theorem ofBuffers_sums [ArrayLibrary] (hlawful : ArrayLibrary.Lawful) {arithmetic : DotArithmetic α} {read : Numeric → α} {write : α → Numeric} {refW : HostRef}
    {offsetW incrementW : Nat} (hrepresents : arithmetic.Represents v.dtype read write) (hv : v.Spaced heap count increment)
    (hw : w.Spaced heap count incrementW) (hsame : w.dtype = v.dtype) (hdata : v.value.data = .host ref offset)
    (hdataW : w.value.data = .host refW offsetW) {xs ys : List Numeric} (hxs : v.value.elements heap = .ok xs)
    (hys : w.value.elements heap = .ok ys) :
    (0 < increment → 0 < incrementW → ∃ total,
      arithmetic.ofBuffers v.dtype read count (heap.get ref) offset increment (heap.get refW) offsetW incrementW = .ok total ∧
        arithmetic.Sums (arithmetic.products (xs.map read) (ys.map read)) total) ∧
    (increment = 0 ∨ incrementW = 0 →
      arithmetic.ofBuffers v.dtype read count (heap.get ref) offset increment (heap.get refW) offsetW incrementW =
        .error (.notImplemented (.dotIncrement 0))) := by
  have hfits := hv.hosted.fits
  have hfitsW := hw.hosted.fits
  have hview := view_eq_ok hlawful read hrepresents.bytes_eq hfits hdata hv.layout_eq (hv.room ref offset hdata)
  have hviewW := view_eq_ok hlawful read (hrepresents.bytes_eq.trans (hsame ▸ rfl)) hfitsW hdataW hw.layout_eq
    (hw.room refW offsetW hdataW)
  have helements := elements_ofSlice hfits hdata hv.layout_eq hv.signed hxs read
  have helementsW := elements_ofSlice hfitsW hdataW hw.layout_eq hw.signed hys read
  have hlength : (xs.map read).length = (ys.map read).length := by
    rw [List.length_map, List.length_map, Value.length_of_elements hxs, Value.length_of_elements hys, hv.layout_eq, hw.layout_eq]
  have hfrom := elementsFrom_eq_ok hfitsW hdataW
  rw [hsame] at hfrom
  rw [DotArithmetic.ofBuffers, elementsFrom_eq_ok hfits hdata, ok_bind, hfrom, ok_bind]
  rw [← helements, ← helementsW] at hlength ⊢
  refine ⟨fun hpos hposW => DotArithmetic.exists_dot hlawful (hview hpos) (hviewW hposW) hlength, ?_⟩
  intro hzero
  rw [DotArithmetic.dot]
  rcases Nat.eq_zero_or_pos increment with rfl | hpos
  · rw [Int.natCast_zero, DotArithmetic.view_of_increment_zero]
    rfl
  · obtain rfl := hzero.resolve_left (Nat.ne_of_gt hpos)
    rw [hview hpos, ok_bind, Int.natCast_zero, DotArithmetic.view_of_increment_zero]
    rfl

end Spaced

section Sums

variable {σ : Type} {world : World σ} {incrementW : Nat}

/-- The terms of the loop are the products of the kernel. Both go through the
    elements in the same order up to here. -/
theorem Spaced.terms_eq {arithmetic : DotArithmetic α} {read : Numeric → α} {write : α → Numeric}
    (hrepresents : arithmetic.Represents v.dtype read write) (hv : v.Spaced heap count increment)
    (hw : w.Spaced heap count incrementW) (hsame : w.dtype = v.dtype) {xs ys : List Numeric}
    (hxs : v.value.elements heap = .ok xs) (hys : w.value.elements heap = .ok ys) :
    (Reduction.dotByLoop v w).terms heap =
      .ok (((arithmetic.products (xs.map read) (ys.map read)).map write).map .ok) := by
  have hmul := hrepresents.zipWith_mul (Value.dtype_of_elements hv.hosted.fits.sound hxs)
    fun y hy => (Value.dtype_of_elements hw.hosted.fits.sound hys y hy).trans hsame
  rw [Reduction.terms, hxs, ok_bind, hys, ok_bind, hmul]
  rfl

/-- The two ways to form an inner product of floats. The loop adds the products
    to zero in order. The kernel adds the same ones in an order of its own, but
    refuses a vector that repeats its first element. -/
theorem Spaced.exists_products [ArrayLibrary] (hlawful : ArrayLibrary.Lawful) (hcontext : world.contexts.head? = some .compute)
    (hv : v.Spaced world.heap count increment) (hw : w.Spaced world.heap count incrementW)
    (hdtype : v.dtype = .f32 ∨ v.dtype = .f64) (hsame : w.dtype = v.dtype) :
    ∃ products : List Numeric, products.length = count ∧
      (Reduction.dotByLoop v w).terms world.heap = .ok (products.map .ok) ∧
      (∃ total, (Numeric.zero v.dtype).fold (products.map .ok) = .ok total) ∧
      (0 < increment → 0 < incrementW → ∃ total, (v.dot w).runFrom world = (.ok (.ofNumeric total), world) ∧
        Numeric.Sums v.dtype products total) ∧
      (increment = 0 ∨ incrementW = 0 →
        (v.dot w).runFrom world = (.error (.error (.notImplemented (.dotIncrement 0))), world)) := by
  obtain ⟨α, arithmetic, read, write, symbol, hrepresents, hkernel⟩ := exists_kernel hdtype
  obtain ⟨ref, offset, hdata⟩ := hv.hosted.exists_data
  obtain ⟨refW, offsetW, hdataW⟩ := hw.hosted.exists_data
  obtain ⟨xs, hxs, hcount⟩ := hv.exists_elements
  obtain ⟨ys, hys, hcountW⟩ := hw.exists_elements
  obtain ⟨hsums, hrefuses⟩ := hv.ofBuffers_sums hlawful hrepresents hw hsame hdata hdataW hxs hys
  have hdot : (v.dot w).runFrom world = (v.dotByKernel symbol (vendorDot arithmetic v.dtype read write) w).runFrom world := by
    rw [dot_eq, Stateful.runFrom_bind_of_ok (runFrom_size hv.size_eq world),
      Stateful.runFrom_bind_of_ok (runFrom_size hw.size_eq world), if_neg (not_not.mpr rfl), if_neg (not_not.mpr hsame.symm),
      hkernel]
  rw [runFrom_dotByKernel hrepresents hcontext rfl hsame hdata hdataW hv.layout_eq hw.layout_eq hv.count_le hv.increment_le
    hw.increment_le] at hdot
  refine ⟨_, ?_, hv.terms_eq hrepresents hw hsame hxs hys, ?_, fun hpos hposW => ?_, fun hzero => ?_⟩
  · rw [List.length_map, DotArithmetic.products, List.length_zipWith, List.length_map, List.length_map, hcount, hcountW,
      Nat.min_self]
  · obtain ⟨total, htotal⟩ := hrepresents.exists_fold (arithmetic.products (xs.map read) (ys.map read)) arithmetic.zero
    exact ⟨write total, hrepresents.write_zero ▸ htotal⟩
  · obtain ⟨total, htotal, hterms⟩ := hsums hpos hposW
    rw [htotal] at hdot
    exact ⟨write total, hdot, hrepresents.sums hterms⟩
  · rw [hrefuses hzero] at hdot
    exact hdot

/-- The loop gives the total of its products in storage that was not there
    before. This holds for vectors that repeat their first element as well,
    which no kernel takes. -/
theorem Spaced.exists_runFrom_dotByLoop (hcontext : world.contexts.head? = some .compute)
    (hv : v.Spaced world.heap count increment) (hw : w.Spaced world.heap count incrementW) (hsame : w.dtype = v.dtype)
    {products : List Numeric} {total : Numeric}
    (hterms : (Reduction.dotByLoop v w).terms world.heap = .ok (products.map .ok))
    (htotal : (Numeric.zero v.dtype).fold (products.map .ok) = .ok total) :
    ∃ heap, (v.dotByLoop w).runFrom world = (.ok (.next world.heap v.dtype), { world with heap }) ∧
      world.heap.Spares world.heap.buffers.size heap ∧ (Scalar.next world.heap v.dtype).value.held heap = .ok total := by
  have htakes := hv.takes hw hsame
  obtain ⟨heap, hspares, hrun, hheld⟩ := Reduction.exists_runFrom_run hcontext htakes
  obtain ⟨_, hstart, hfold⟩ := Reduction.exists_total_eq_fold htakes hterms
  cases hstart
  have hsum : (Reduction.dotByLoop v w).total world.heap = .ok total := hfold.trans (congrArg liftM htotal)
  rw [hsum] at hrun
  exact ⟨heap, hrun, hspares, hheld _ hsum⟩

/-- Vectors of singles or doubles, of one size and type, are multiplied by the
    loop, and by the kernel if none of them repeats its first element; the
    kernel refuses those that do. Both results are sums from zero of the same
    products, one for each coordinate: that of the loop in order, that of the
    kernel in an order of its own. No buffer there was changes. -/
theorem dot_sums [ArrayLibrary] (hlawful : ArrayLibrary.Lawful) (hcontext : world.contexts.head? = some .compute)
    (hv : v.Spaced world.heap count increment) (hw : w.Spaced world.heap count incrementW) (hdtype : v.dtype = .f32 ∨ v.dtype = .f64) (hsame : w.dtype = v.dtype) :
    ∃ products : List Numeric, products.length = count ∧
      (Reduction.dotByLoop v w).terms world.heap = .ok (products.map .ok) ∧
      (∃ total heap, (v.dotByLoop w).runFrom world = (.ok (.next world.heap v.dtype), { world with heap }) ∧
        world.heap.Spares world.heap.buffers.size heap ∧ (Scalar.next world.heap v.dtype).value.held heap = .ok total ∧
        (Numeric.zero v.dtype).fold (products.map .ok) = .ok total ∧ Numeric.Sums v.dtype products total) ∧
      (0 < increment → 0 < incrementW → ∃ total, (v.dot w).runFrom world = (.ok (.ofNumeric total), world) ∧
        Numeric.Sums v.dtype products total) ∧
      (increment = 0 ∨ incrementW = 0 →
        (v.dot w).runFrom world = (.error (.error (.notImplemented (.dotIncrement 0))), world)) := by
  obtain ⟨products, hlength, hterms, ⟨total, htotal⟩, hdot⟩ := hv.exists_products hlawful hcontext hw hdtype hsame
  obtain ⟨heap, hrun, hspares, hheld⟩ := hv.exists_runFrom_dotByLoop hcontext hw hsame hterms htotal
  exact ⟨products, hlength, hterms, ⟨total, heap, hrun, hspares, hheld, htotal, Numeric.Sums.zero.fold htotal⟩, hdot⟩

end Sums

/-- Five singles: 1, 2 and 3, and 100 between them. -/
def singles : World Unit where
  heap := ⟨#[⟨.f32, #[.f32 0x3f800000, .f32 0x42c80000, .f32 0x40000000, .f32 0x42c80000, .f32 0x40400000], by decide⟩]⟩
  contexts := [.compute]
  client := ()

/-- The first of the singles and each one so far on, three in all. -/
def everyNth (increment : Nat) : Vector := ⟨⟨.f32, ⟨[3], [increment]⟩, .host ⟨0⟩ 0⟩, rfl⟩

/-- The vectors of the example are spaced. Their elements are at even distances
    in one buffer. -/
theorem spaced_everyNth {increment : Nat} (hle : increment ≤ 2) : (everyNth increment).Spaced singles.heap 3 increment := by
  obtain rfl | rfl | rfl : increment = 0 ∨ increment = 1 ∨ increment = 2 := by omega
  all_goals exact ⟨⟨⟨⟨rfl, rfl⟩, fun _ _ hdata => by cases hdata; decide⟩, rfl⟩, rfl, by decide, by decide,
    fun _ _ hdata => by cases hdata; rfl⟩

/-- The kernel multiplies 1, 2 and 3 by 1, 100 and 2. -/
theorem dot_sums_everyNth :
    ArrayLibrary.Lawful ∧ singles.contexts.head? = some .compute ∧ (everyNth 2).Spaced singles.heap 3 2 ∧ (everyNth 1).Spaced singles.heap 3 1 ∧
    ((everyNth 2).dtype = .f32 ∨ (everyNth 2).dtype = .f64) ∧ (everyNth 1).dtype = (everyNth 2).dtype ∧
    ∃ products total, products.length = 3 ∧ ((everyNth 2).dot (everyNth 1)).runFrom singles = (.ok (.ofNumeric total), singles) ∧
      Numeric.Sums .f32 products total := by
  have hcontext : singles.contexts.head? = some .compute := rfl
  have hv : (everyNth 2).Spaced singles.heap 3 2 := spaced_everyNth (by decide)
  have hw : (everyNth 1).Spaced singles.heap 3 1 := spaced_everyNth (by decide)
  obtain ⟨products, hlength, -, -, hdot, -⟩ := dot_sums ArrayLibrary.lawful_interleaved hcontext hv hw (.inl rfl) rfl
  obtain ⟨total, hrun, hsums⟩ := hdot (by decide) (by decide)
  exact ⟨ArrayLibrary.lawful_interleaved, hcontext, hv, hw, .inl rfl, rfl, products, total, hlength, hrun, hsums⟩

/-- The kernel succeeds exactly where the loop does, whatever library it is
    built on. -/
def KernelSucceedsAsLoop : Prop :=
  ∀ [ArrayLibrary], ArrayLibrary.Lawful → ∀ (world : World Unit) (v w : Vector) (count increment incrementW : Nat), world.contexts.head? = some .compute →
    v.Spaced world.heap count increment → w.Spaced world.heap count incrementW → v.dtype = .f32 ∨ v.dtype = .f64 →
    w.dtype = v.dtype →
      ((∃ product after, (v.dot w).runFrom world = (.ok product, after)) ↔
        ∃ product after, (v.dotByLoop w).runFrom world = (.ok product, after))

/-- The loop multiplies a vector that repeats its first element, and the kernel
    does not. -/
theorem repeated_refused : ¬KernelSucceedsAsLoop := by
  intro hclaim
  have hcontext : singles.contexts.head? = some .compute := rfl
  have hspaced : (everyNth 0).Spaced singles.heap 3 0 := spaced_everyNth (by decide)
  obtain ⟨products, -, hterms, ⟨total, htotal⟩, -, hrefused⟩ :=
    hspaced.exists_products ArrayLibrary.lawful_interleaved hcontext hspaced (.inl rfl) rfl
  obtain ⟨heap, hloop, -⟩ := hspaced.exists_runFrom_dotByLoop hcontext hspaced rfl hterms htotal
  obtain ⟨product, after, hdot⟩ := (hclaim ArrayLibrary.lawful_interleaved singles _ _ 3 0 0 hcontext hspaced hspaced (.inl rfl) rfl).mpr ⟨_, _, hloop⟩
  cases (hrefused (.inl rfl)).symm.trans hdot

end Vector

end StagedArrays
