import StagedArrays.Algebra.Reduce
import StagedArrays.Proofs.Context
import StagedArrays.Proofs.Storage.Direct

namespace StagedArrays

namespace HostBuffer

/-- Two buffers of one type and length that hold the same at `count` places,
    `increment` apart. -/
structure StridedEq (count increment offset : Nat) (x y : HostBuffer) : Prop where
  dtype_eq : x.dtype = y.dtype
  length_eq : x.length = y.length
  get_eq : ∀ k < count, x.get? (offset + k * increment) = y.get? (offset + k * increment)

/-- The elements from an offset on, if they are of the expected type. An offset
    beyond the end is an error as well. -/
def elementsFrom (buffer : HostBuffer) (dtype : DType) (offset : Nat) : Except ValueError (Array Numeric) := do
  let elements ← buffer.elementsOf dtype
  if elements.size < offset then .error (.invalidArgument (.kernelOffset offset))
  else .ok (elements.extract offset elements.size)

/-- Buffers that agree on a strided part give elements that agree there. -/
theorem StridedEq.elementsFrom {count increment offset : Nat} {x y : HostBuffer} {dtype : DType}
    (h : StridedEq count increment offset x y) :
    (∃ cause, x.elementsFrom dtype offset = .error cause ∧ y.elementsFrom dtype offset = .error cause) ∨
      ∃ xs ys, x.elementsFrom dtype offset = .ok xs ∧ y.elementsFrom dtype offset = .ok ys ∧
        xs.size = ys.size ∧ ∀ k < count, xs[k * increment]? = ys[k * increment]? := by
  unfold HostBuffer.elementsFrom elementsOf
  have hlength : x.elements.size = y.elements.size := h.length_eq
  rw [h.dtype_eq]
  split
  · simp only [ok_bind, hlength]
    split
    · exact .inl ⟨_, rfl, rfl⟩
    · refine .inr ⟨_, _, rfl, rfl, by simp [hlength], fun k hk => ?_⟩
      have hget : x.elements[offset + k * increment]? = y.elements[offset + k * increment]? := h.get_eq k hk
      simp only [Array.getElem?_extract, hlength, hget]
  · exact .inl ⟨_, rfl, rfl⟩

end HostBuffer

namespace DotArithmetic

variable {α : Type} (arithmetic : DotArithmetic α)

/-- A sum that starts from zero, perhaps several times over, and takes in each
    of its terms once. The order of the terms and how they are grouped is left
    open. -/
inductive Sums : List α → α → Prop where
  | zero : Sums [] arithmetic.zero
  | term {xs : List α} {a : α} (ha : Sums xs a) (x : α) : Sums (xs ++ [x]) (arithmetic.add a x)
  | add {xs ys : List α} {a b : α} (ha : Sums xs a) (hb : Sums ys b) : Sums (xs ++ ys) (arithmetic.add a b)
  | perm {xs ys : List α} {a : α} (hperm : xs.Perm ys) (ha : Sums xs a) : Sums ys a

/-- The products of two sequences, element by element. The longer one is cut off
    where the shorter one ends. -/
def products (xs ys : List α) : List α := List.zipWith arithmetic.mul xs ys

end DotArithmetic

/-- What the library documents of itself: it grants each view that lies inside
    its slice, and its inner products start from zero and add every product
    once. In which order it adds, and whether in one sum or in several, it
    leaves open. -/
structure ArrayLibrary.Lawful [ArrayLibrary] : Prop where
  /-- No slice has more bytes than a signed word counts. -/
  grant_eq_ok {bytes length count increment : Nat} (hincrement : 0 < increment)
    (hbytes : length * bytes < Word.bound / 2) (hinside : 0 < count → (count - 1) * increment < length) :
    grant bytes length count increment = .ok ()
  sums_dot {α : Type} (arithmetic : DotArithmetic α) {x y : StridedView α}
    (hlength : x.elements.length = y.elements.length) :
    arithmetic.Sums (arithmetic.products x.elements y.elements) (ArrayLibrary.dot arithmetic x y)

namespace DotArithmetic

variable [ArrayLibrary] {α : Type} (arithmetic : DotArithmetic α)

/-- A view depends on how much there is and on the elements in view. -/
theorem view_congr {count increment : Int} {data data' : Array α} (hsize : data.size = data'.size)
    (hget : ∀ k < count.toNat, data[k * increment.toNat]? = data'[k * increment.toNat]?) :
    arithmetic.view count increment data = arithmetic.view count increment data' := by
  have hview : StridedView.ofSlice count.toNat increment.toNat data = .ofSlice count.toNat increment.toNat data' :=
    congrArg (StridedView.mk _) (List.filterMap_congr fun k hk => hget k (List.mem_range.mp hk))
  simp only [view, hsize, hview]

/-- What an inner product of strided parts of two buffers comes to. Numbers are
    read from both and the result is not written yet. -/
def ofBuffers (dtype : DType) (read : Numeric → α) (count : Int) (x : HostBuffer) (xOffset : Nat)
    (xIncrement : Int) (y : HostBuffer) (yOffset : Nat) (yIncrement : Int) : Except ValueError α := do
  let xs ← x.elementsFrom dtype xOffset
  let ys ← y.elementsFrom dtype yOffset
  arithmetic.dot count (xs.map read) xIncrement (ys.map read) yIncrement

/-- Inner products of buffers that agree on the parts in view are the same. -/
theorem ofBuffers_congr {dtype : DType} {read : Numeric → α} {count xIncrement yIncrement : Int}
    {x x' y y' : HostBuffer} {xOffset yOffset : Nat}
    (hx : x.StridedEq count.toNat xIncrement.toNat xOffset x')
    (hy : y.StridedEq count.toNat yIncrement.toNat yOffset y') :
    arithmetic.ofBuffers dtype read count x xOffset xIncrement y yOffset yIncrement =
      arithmetic.ofBuffers dtype read count x' xOffset xIncrement y' yOffset yIncrement := by
  unfold ofBuffers
  rcases hx.elementsFrom with ⟨cause, hxs, hxs'⟩ | ⟨xs, xs', hxs, hxs', hxsize, hxget⟩
  · rw [hxs, hxs', error_bind, error_bind]
  rw [hxs, hxs']
  rcases hy.elementsFrom with ⟨cause, hys, hys'⟩ | ⟨ys, ys', hys, hys', hysize, hyget⟩
  · rw [hys, hys', ok_bind, ok_bind, error_bind, error_bind]
  rw [hys, hys', ok_bind, ok_bind, ok_bind, ok_bind]
  have hxview := @DotArithmetic.view_congr _ _ arithmetic count xIncrement
    (xs.map read) (xs'.map read) (by simpa using hxsize)
    fun k hk => by simp only [Array.getElem?_map, hxget k hk]
  have hyview := @DotArithmetic.view_congr _ _ arithmetic count yIncrement
    (ys.map read) (ys'.map read) (by simpa using hysize)
    fun k hk => by simp only [Array.getElem?_map, hyget k hk]
  unfold dot
  rw [hxview, hyview]

end DotArithmetic

/-- Reading storage from an offset on changes nothing. It fails for storage of
    another type and for an offset behind the end. -/
theorem runFrom_elementsFrom (dtype : DType) (ref : HostRef) (offset : Nat) (heap : Heap) :
    (HostArgument.elementsFrom dtype ref offset).runFrom heap =
      ((liftM ((heap.get ref).elementsFrom dtype offset) : Outcome (Array Numeric)), heap) := by
  unfold HostArgument.elementsFrom HostBuffer.elementsFrom
  simp only [Stateful.runFrom_bind, HeapM.runFrom_read, Stateful.runFrom_liftM]
  cases (heap.get ref).elementsOf dtype with
  | error cause => rfl
  | ok elements =>
    simp only [liftM_error_ok, ok_bind]
    split
    · rfl
    · rfl

/-- A kernel reads two buffers and changes nothing. What it comes to is what the
    library makes of the two parts. -/
theorem runFrom_vendorDot [ArrayLibrary] {α : Type} (arithmetic : DotArithmetic α) (dtype : DType) (read : Numeric → α)
    (write : α → Numeric) (count xIncrement yIncrement : Int32) (x y : HostRef) (xOffset yOffset : Nat)
    (heap : Heap) :
    (vendorDot arithmetic dtype read write [.scalar (.i32 count), .buffer x xOffset, .scalar (.i32 xIncrement),
        .buffer y yOffset, .scalar (.i32 yIncrement)]).runFrom heap =
      ((liftM (arithmetic.ofBuffers dtype read count.toInt (heap.get x) xOffset xIncrement.toInt (heap.get y)
        yOffset yIncrement.toInt) : Outcome α).map fun z => some (write z), heap) := by
  unfold vendorDot DotArithmetic.ofBuffers
  have hcount : ∀ n : Int32, (HostArgument.scalar (.i32 n)).asCount = .ok n.toInt := fun _ => rfl
  have hbuffer : ∀ ref offset, (HostArgument.buffer ref offset).asBuffer = .ok (ref, offset) := fun _ _ => rfl
  simp only [hcount, hbuffer, Stateful.runFrom_bind, Stateful.runFrom_liftM, liftM_error_ok, runFrom_elementsFrom]
  cases (heap.get x).elementsFrom dtype xOffset with
  | error cause => rfl
  | ok xs =>
    simp only [liftM_error_ok, ok_bind]
    cases (heap.get y).elementsFrom dtype yOffset with
    | error cause => rfl
    | ok ys =>
      simp only [liftM_error_ok, ok_bind]
      cases arithmetic.dot count.toInt (xs.map read) xIncrement.toInt (ys.map read) yIncrement.toInt <;> rfl

namespace Vector

variable {σ : Type}

/-- The inner product of vectors of one size and type. Single and double have a
    kernel, and the other types a loop. -/
def dotByType [ArrayLibrary] (v w : Vector) : Action σ Scalar :=
  match v.dtype with
  | .f32 => dotByKernel Kernel.singleDotSymbol Kernel.singleDot v w
  | .f64 => dotByKernel Kernel.doubleDotSymbol Kernel.doubleDot v w
  | .bf16 | .f16 | .i64 | .i32 => dotByLoop v w

/-- The inner product compares sizes before element types, and calls nothing
    before both comparisons have passed. -/
theorem dot_eq [ArrayLibrary] (v w : Vector) : (v.dot w : Action σ Scalar) = (do
    let vSize ← v.size
    let wSize ← w.size
    if vSize ≠ wSize then .fail (.sizeMismatch vSize wSize)
    else if v.dtype ≠ w.dtype then .fail (.typeMismatch v.dtype w.dtype)
    else v.dotByType w) := by
  refine bind_congr fun vSize => bind_congr fun wSize => ?_
  unfold dotByType
  refine ite_congr rfl (fun _ => rfl) fun _ => ite_congr rfl (fun _ => rfl) fun _ => ?_
  cases v.dtype <;> rfl

/-- An inner product by a loop, with the sizes compared first. The sum is kept
    in storage of its own. -/
theorem dotByLoop_eq (v w : Vector) : (v.dotByLoop w : Action σ Scalar) = (do
    let vSize ← v.size
    let wSize ← w.size
    if vSize ≠ wSize then .fail (.sizeMismatch vSize wSize)
    else do
      let total ← Scalar.allocate v.dtype
      Action.forVector v.value fun index => do
        let x ← v.element index
        let y ← w.element index
        discard (total.assign .add (← Scalar.combine .mul x y))
      return total) := by
  refine bind_congr fun vSize => bind_congr fun wSize => ?_
  split <;> rfl

/-- A kernel called directly gives an immediate and changes nothing. Its
    arguments are converted first. -/
theorem runFrom_callKernel {α : Type} {write : α → Numeric} {symbol : String} {kernel : HostFunction} {v w : Vector}
    {args : List Value} {given : List HostArgument} {outcome : Outcome α} {heap : Heap}
    (hgiven : Direct.hostArguments args = .ok given)
    (hrun : (kernel given).runFrom heap = (outcome.map fun z => some (write z), heap)) :
    (Direct.call (kernelDeclaration .compute symbol kernel v w) args).runFrom heap =
      (outcome.map fun z => some (.constant (write z)), heap) := by
  have hcall : Direct.call (kernelDeclaration .compute symbol kernel v w) args = (do
      return (← kernel (← Direct.hostArguments args)).map Value.constant) := rfl
  simp only [hcall, hgiven, Stateful.runFrom_bind, Stateful.runFrom_liftM, liftM_error_ok, hrun]
  cases outcome <;> rfl

/-- A kernel is called directly with arguments that pass the checks. It is the
    way of a call on the host. -/
theorem runFrom_callIn_kernel {α : Type} {write : α → Numeric} {world : World σ} {symbol : String} {kernel : HostFunction}
    {v w : Vector} {args : List Value} {outcome : Outcome α} (hwrite : ∀ z, (write z).dtype = v.dtype)
    (hcheck : (kernelDeclaration .compute symbol kernel v w).checkArguments args = .ok ())
    (hcall : (Direct.call (kernelDeclaration .compute symbol kernel v w) args).runFrom world.heap =
      (outcome.map fun z => some (.constant (write z)), world.heap)) :
    ((kernelDeclaration .compute symbol kernel v w).callIn .compute args).runFrom world =
      (outcome.map fun z => some (.constant (write z)), world) := by
  unfold FunctionDeclaration.callIn Context.call
  simp only [hcheck, Stateful.runFrom_bind, Stateful.runFrom_liftM, liftM_self, Action.runFrom_onHeap, hcall]
  cases outcome with
  | error failure => rfl
  | ok z =>
    have hensure : (Value.constant (write z)).ensureDType v.dtype = .ok () :=
      Value.ensureDType_eq_ok.mpr (hwrite z)
    simp only [Except.map, kernelDeclaration, ValueType.scalar, hensure, Stateful.runFrom_bind,
      Stateful.runFrom_liftM, liftM_error_ok]
    rfl

/-- A count that fits becomes an immediate of thirty-two bits with the same
    value. -/
theorem countValue_eq_ok {count : Nat} {value : Value} :
    countValue count = .ok value ↔ ∃ n : Int32, n.toInt = count ∧ value = .constant (.i32 n) := by
  unfold countValue
  have hmax : Int32.maxValue.toInt = 2147483647 := by decide
  split
  · next hle =>
    have hlt : count < 2 ^ 31 := by omega
    have htoInt : (Int32.ofNat count).toInt = count := Int32.toInt_ofNat_of_lt hlt
    simp only [Except.ok.injEq]
    constructor
    · rintro rfl
      exact ⟨_, htoInt, rfl⟩
    · rintro ⟨n, hn, rfl⟩
      rw [← htoInt] at hn
      rw [Int32.toInt.inj hn]
  · next hgt =>
    simp only [reduceCtorEq, false_iff]
    rintro ⟨n, hn, -⟩
    have hle := n.toInt_le
    omega

end Vector

end StagedArrays
