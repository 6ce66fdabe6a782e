import StagedArrays.Proofs.Algebra.Passes
import StagedArrays.Proofs.Algebra.Totals

namespace StagedArrays

/-- A loop that adds to one total. All of them are one definition with different
    terms. -/
inductive Reduction where
  | sum (v : Vector)
  | sumMatrix (m : Matrix)
  | accumulate (v : Vector) (initial : Scalar)
  | dotByLoop (v w : Vector)

/-- Lists that are combined member by member stay related to a third if the
    combination keeps the relation. -/
theorem forall₂_zipWith {α β γ δ : Type} {p : α → β → Prop} {q : α → γ → Prop} {r : α → δ → Prop} {f : β → γ → δ}
    (h : ∀ a b c, p a b → q a c → r a (f b c)) {as : List α} {bs : List β} {cs : List γ} (hbs : List.Forall₂ p as bs)
    (hcs : List.Forall₂ q as cs) : List.Forall₂ r as (List.zipWith f bs cs) := by
  induction hbs generalizing cs with
  | nil => exact .nil
  | cons hb _ ih =>
    cases hcs with
    | cons hc hcs => exact .cons (h _ _ _ hb hc) (ih hcs)

namespace Numeric

/-- The left fold of a sum, over terms each of which may be missing. -/
def fold (start : Numeric) (terms : List (Except ValueError Numeric)) : Except ValueError Numeric :=
  terms.foldlM (fun total term => do total.binary .add (← term)) start

/-- Where the terms can be found, adding what is found is the fold over them. -/
theorem addAll_eq_fold {term : List Nat → Outcome Numeric} {visited : List (List Nat)}
    {terms : List (Except ValueError Numeric)} (h : List.Forall₂ (fun coordinates t => term coordinates = liftM t) visited terms)
    (start : Numeric) : start.addAll term visited = liftM (start.fold terms) := by
  induction h generalizing start with
  | nil => rfl
  | @cons coordinates t visited terms hterm _ ih =>
    rw [addAll, List.foldlM_cons, addTerm, hterm, fold, List.foldlM_cons]
    cases t with
    | error cause => rfl
    | ok y =>
      rw [liftM_error_ok, ok_bind, ok_bind]
      cases hz : start.binary .add y with
      | error cause => rfl
      | ok z => exact ih z

end Numeric

namespace Value

/-- A view of storage on the host. -/
structure Hosted (heap : Heap) (value : Value) : Prop where
  fits : value.Fits heap
  isHost : value.host?.isSome

/-- A value on the host has a buffer and an offset. It is neither an immediate
    nor recorded. -/
theorem Hosted.exists_data {heap : Heap} {value : Value} (h : value.Hosted heap) :
    ∃ ref offset, value.data = .host ref offset := by
  obtain ⟨⟨ref, offset⟩, hhost⟩ := Option.isSome_iff_exists.mp h.isHost
  exact ⟨ref, offset, host?_eq_some.mp hhost⟩

/-- Storage of rank 0 holds an immediate. -/
theorem Hosted.exists_held {heap : Heap} {value : Value} (h : value.Hosted heap) (hrank : value.rank = 0) :
    ∃ x, value.held heap = .ok x ∧ x.dtype = value.dtype := by
  obtain ⟨ref, offset, hdata⟩ := h.exists_data
  have hin : Layout.InBounds [] value.layout.extents := by
    rw [List.length_eq_zero_iff.mp hrank]
    exact .nil
  obtain ⟨x, hx, -⟩ := h.fits.sound.exists_peek hdata rfl hin
  exact ⟨x, (peek_nil h.fits.sound hrank).symm.trans hx, dtype_of_peek h.fits.sound hx⟩

/-- The elements, in row-major order. -/
def elements (heap : Heap) (value : Value) : Outcome (List Numeric) :=
  (Layout.rowMajor value.layout.extents).mapM (value.peek heap)

/-- A view of storage with few enough coordinates has its elements. -/
theorem Hosted.exists_elements {heap : Heap} {value : Value} (h : value.Hosted heap)
    (hcount : Word.Signed value.layout.extents.prod) : ∃ xs, value.elements heap = .ok xs := by
  obtain ⟨ref, offset, hdata⟩ := h.exists_data
  refine exists_mapM fun coordinates hmem => ?_
  obtain ⟨x, hx, -⟩ := h.fits.sound.exists_peek hdata (Layout.indices_of_signed_prod hcount hmem) (Layout.mem_rowMajor.mp hmem)
  exact ⟨x, hx⟩

end Value

namespace Vector

/-- A vector whose coordinates can be counted has a size. The product of a
    single extent is that extent. -/
theorem exists_size {v : Vector} {packed : Layout} (h : v.value.layout.contiguous = .ok packed) : ∃ count, v.size = .ok count := by
  obtain ⟨extent, hextents⟩ := v.exists_extents_eq
  rw [Layout.contiguous, hextents] at h
  obtain ⟨size, hpacks⟩ := Layout.packed_eq_ok h
  have hlength := hpacks.length_rowMajor
  rw [Layout.length_rowMajor, List.prod_singleton] at hlength
  exact ⟨extent, (size_eq hextents).trans (Word.mul_eq_ok_iff.mpr ⟨(Nat.one_mul extent).symm, hlength ▸ hpacks.lt_bound⟩)⟩

end Vector

namespace Reduction

variable {σ : Type}

/-- What a reduction is carried out as. Each gives a scalar in fresh storage. -/
def run : Reduction → Action σ Scalar
  | sum v => v.sum
  | sumMatrix m => m.sum
  | accumulate v initial => v.accumulate initial
  | dotByLoop v w => v.dotByLoop w

/-- The value whose coordinates are gone through. An inner product goes through
    those of its first vector. -/
def visited : Reduction → Value
  | sum v | accumulate v _ | dotByLoop v _ => v.value
  | sumMatrix m => m.value

/-- What the total is at first: zero, or what the scalar holds that is
    accumulated into. -/
def start (heap : Heap) : Reduction → Outcome Numeric
  | accumulate _ initial => initial.value.held heap
  | r => .ok (.zero r.visited.dtype)

/-- What is added at given coordinates: an element, or the product of two. -/
def term (heap : Heap) : Reduction → List Nat → Outcome Numeric
  | sum v, coordinates | accumulate v _, coordinates => v.value.peek heap coordinates
  | sumMatrix m, coordinates => m.value.peek heap coordinates
  | dotByLoop v w, coordinates => do
    let x ← v.value.peek heap coordinates
    let y ← w.value.peek heap coordinates
    x.binary .mul y

/-- What a reduction comes to: the left fold of its terms from where it
    starts. -/
def total (heap : Heap) (r : Reduction) : Outcome Numeric := do
  (← r.start heap).addAll (r.term heap) (Layout.rowMajor r.visited.layout.extents)

/-- All that is added, in row-major order. A product may be missing, and then
    the fold ends there. -/
def terms (heap : Heap) : Reduction → Outcome (List (Except ValueError Numeric))
  | sum v | accumulate v _ => do return (← v.value.elements heap).map .ok
  | sumMatrix m => do return (← m.value.elements heap).map .ok
  | dotByLoop v w => do
    return List.zipWith (fun x y => x.binary .mul y) (← v.value.elements heap) (← w.value.elements heap)

/-- Operands that go together. The coordinates can be counted. A vector is
    accumulated into a scalar of its type, and multiplied with a vector of its
    size and type. -/
def Takes (heap : Heap) (r : Reduction) : Prop :=
  r.visited.Hosted heap ∧ (∃ packed, r.visited.layout.contiguous = .ok packed) ∧
    match r with
    | sum _ | sumMatrix _ => True
    | accumulate v initial => initial.dtype = v.dtype ∧ ((∃ x, initial = .ofNumeric x) ∨ initial.value.Hosted heap)
    | dotByLoop v w => w.value.Hosted heap ∧ w.size = v.size ∧ w.dtype = v.dtype

/-- Takes storage for the total, with what it is at first in it. -/
def begin : Reduction → Action σ Scalar
  | accumulate _ initial => initial.copy
  | r => Scalar.allocate r.visited.dtype

/-- Adds all terms to a total. The terms are read in the course of it, not
    before. -/
def addInto (total : Scalar) : Reduction → Action σ Unit
  | sum v | accumulate v _ => v.addInto total
  | sumMatrix m => Action.forMatrix m.value fun row column => do
    discard (total.assign .add (← m.element row column))
  | dotByLoop v w => v.productsInto w total

variable {world : World σ} {before : Heap} {r : Reduction} {packed : Layout}

/-- A reduction takes storage and then adds. Comparisons that come before have
    been passed where its operands go together. -/
theorem runFrom_run (h : r.Takes world.heap) : r.run.runFrom world = (do
    let total ← r.begin
    r.addInto total
    return total : Action σ Scalar).runFrom world := by
  cases r with
  | sum | sumMatrix | accumulate => rfl
  | dotByLoop v w =>
    obtain ⟨-, ⟨packed, hpacked⟩, -, hsize, -⟩ := h
    obtain ⟨count, hcount⟩ := Vector.exists_size hpacked
    exact Vector.runFrom_dotByLoop_of_size hcount (hsize.trans hcount) world

/-- What a scalar holds that a vector is accumulated into. It is read before any
    storage is taken. -/
theorem exists_held {v : Vector} {initial : Scalar} (h : (accumulate v initial).Takes before) :
    ∃ x, initial.value.Fits before ∧ initial.value.held before = .ok x ∧ x.dtype = v.dtype := by
  obtain ⟨-, -, hdtype, ⟨x, rfl⟩ | hhosted⟩ := h
  · exact ⟨x, Value.fits_constant _ x, rfl, hdtype⟩
  · obtain ⟨x, hheld, hx⟩ := hhosted.exists_held initial.rank_eq
    exact ⟨x, hhosted.fits, hheld, hx.trans hdtype⟩

/-- A reduction that takes its operands can begin: it starts from zero, or from
    what an initial scalar holds. -/
theorem exists_start (h : r.Takes before) : ∃ start, r.start before = .ok start ∧ start.dtype = r.visited.dtype := by
  cases r with
  | sum | sumMatrix | dotByLoop => exact ⟨_, rfl, Numeric.dtype_zero _⟩
  | accumulate v initial =>
    obtain ⟨x, -, hheld, hx⟩ := exists_held h
    exact ⟨x, hheld, hx⟩

/-- Beginning a reduction takes one more buffer, with the start in it, and
    leaves every other buffer as it is. -/
theorem exists_runFrom_begin (h : r.Takes world.heap) (hcontext : world.contexts.head? = some .compute) {start : Numeric}
    (hstart : r.start world.heap = .ok start) :
    ∃ heap, r.begin.runFrom world = (.ok (.next world.heap r.visited.dtype), { world with heap }) ∧
      world.heap.Totals start heap := by
  cases r with
  | sum | sumMatrix | dotByLoop =>
    cases hstart
    exact Scalar.exists_runFrom_allocate hcontext _
  | accumulate v initial =>
    obtain ⟨x, hfits, hheld, -⟩ := exists_held h
    cases hheld.symm.trans hstart
    obtain ⟨heap, hrun, htotals⟩ := Scalar.exists_runFrom_copy_of_held hcontext hfits hheld
    have hdtype : initial.dtype = v.value.dtype := h.2.2.1
    exact ⟨heap, hdtype ▸ hrun, htotals⟩

/-- A loop over a vector that adds what it finds carries out a fold. What it
    finds does not depend on the total, which has a buffer of its own. -/
theorem exists_runFrom_forVector {v : Vector} {total : Numeric} (item : Scalar → Action σ Scalar)
    (term : List Nat → Outcome Numeric) (hpacked : v.value.layout.contiguous = .ok packed)
    (hcontext : world.contexts.head? = some .compute) (htotals : before.Totals total world.heap)
    (hfinds : ∀ index heap, before.Spares before.buffers.size heap →
      Scalar.Finds { world with heap } (item (.ofIndex index)) total.dtype (term [index])) :
    ∃ heap, (Action.forVector v.value fun index =>
        item index >>= fun x => discard ((Scalar.next before total.dtype).assign .add x)).runFrom world =
        ((total.addAll term (Layout.rowMajor v.value.layout.extents)).map fun _ => (), { world with heap }) ∧
      before.Spares before.buffers.size heap ∧
      ∀ z, total.addAll term (Layout.rowMajor v.value.layout.extents) = .ok z → before.Totals z heap := by
  obtain ⟨extent, hextents⟩ := v.exists_extents_eq
  have hsame : packed.extents = v.value.layout.extents := Layout.extents_eq_of_packed hpacked
  rw [Layout.contiguous, hextents] at hpacked
  rw [Vector.runFrom_forVector hcontext hextents, Stateful.runFrom_bind, Stateful.runFrom_liftM, hpacked]
  dsimp only [liftM_fault_ok]
  rw [Context.runFrom_forEach, hsame]
  refine Scalar.exists_runFrom_forM_add (fun coordinates => item (.ofIndex coordinates.headI)) htotals hcontext ?_ ?_
  · intro coordinates hmem
    rw [hextents, Layout.mem_rowMajor] at hmem
    obtain _ | ⟨_, _ | _⟩ := hmem
    rfl
  · intro coordinates hmem heap hspares
    rw [hextents, Layout.mem_rowMajor] at hmem
    obtain _ | ⟨_, _ | _⟩ := hmem
    exact hfinds _ heap hspares

/-- A loop over a matrix does so row by row. -/
theorem exists_runFrom_forMatrix {m : Matrix} {total : Numeric} (item : Scalar → Scalar → Action σ Scalar)
    (term : List Nat → Outcome Numeric) (hpacked : m.value.layout.contiguous = .ok packed)
    (hcontext : world.contexts.head? = some .compute) (htotals : before.Totals total world.heap)
    (hfinds : ∀ row column heap, before.Spares before.buffers.size heap →
      Scalar.Finds { world with heap } (item (.ofIndex row) (.ofIndex column)) total.dtype (term [row, column])) :
    ∃ heap, (Action.forMatrix m.value fun row column =>
        item row column >>= fun x => discard ((Scalar.next before total.dtype).assign .add x)).runFrom world =
        ((total.addAll term (Layout.rowMajor m.value.layout.extents)).map fun _ => (), { world with heap }) ∧
      before.Spares before.buffers.size heap ∧
      ∀ z, total.addAll term (Layout.rowMajor m.value.layout.extents) = .ok z → before.Totals z heap := by
  obtain ⟨rows, columns, hextents⟩ := List.length_eq_two.mp m.rank_eq
  have hsame : packed.extents = m.value.layout.extents := Layout.extents_eq_of_packed hpacked
  rw [Layout.contiguous, hextents] at hpacked
  rw [Action.forMatrix, hextents]
  dsimp only
  rw [Stateful.runFrom_bind, Stateful.runFrom_liftM, hpacked]
  dsimp only [liftM_fault_ok]
  rw [Stateful.runFrom_bind_of_ok (Action.runFrom_activeContext hcontext), Context.runFrom_forEach, hsame, hextents]
  refine Scalar.exists_runFrom_forM_add
    (fun coordinates => item (.ofIndex coordinates.headI) (.ofIndex coordinates.tail.headI)) htotals hcontext ?_ ?_
  · intro coordinates hmem
    rw [Layout.mem_rowMajor] at hmem
    obtain _ | ⟨_, _ | ⟨_, _ | _⟩⟩ := hmem
    rfl
  · intro coordinates hmem heap hspares
    rw [Layout.mem_rowMajor] at hmem
    obtain _ | ⟨_, _ | ⟨_, _ | _⟩⟩ := hmem
    exact hfinds _ _ heap hspares

/-- The loop of a reduction is the sequence of its additions, in row-major
    order. It stops where an addition fails; until then only the total has
    changed. -/
theorem exists_runFrom_addInto {start : Numeric} (h : r.Takes before) (hcontext : world.contexts.head? = some .compute)
    (htotals : before.Totals start world.heap) (hdtype : start.dtype = r.visited.dtype) :
    ∃ heap, (r.addInto (.next before start.dtype)).runFrom world =
        ((start.addAll (r.term before) (Layout.rowMajor r.visited.layout.extents)).map fun _ => (), { world with heap }) ∧
      before.Spares before.buffers.size heap ∧
      ∀ z, start.addAll (r.term before) (Layout.rowMajor r.visited.layout.extents) = .ok z → before.Totals z heap := by
  obtain ⟨hvisited, ⟨packed, hpacked⟩, hoperands⟩ := h
  have hactive (heap : Heap) : ({ world with heap } : World σ).contexts.head? = some .compute := hcontext
  have hfinds {value : Value} (hhosted : value.Hosted before) (hsame : start.dtype = value.dtype) (coordinates : List Nat)
      (heap : Heap) (hspares : before.Spares before.buffers.size heap) : Scalar.Finds { world with heap } (do
        let context ← Action.activeContext
        Scalar.ofValue (← context.element value (coordinates.map Scalar.ofIndex))) start.dtype (value.peek before coordinates) := by
    obtain ⟨ref, offset, hdata⟩ := hhosted.exists_data
    rw [hsame]
    exact Scalar.finds_element (hactive heap) hhosted.fits hdata hspares coordinates
  have hadd (v : Vector) (hhosted : v.value.Hosted before) (hpacked : v.value.layout.contiguous = .ok packed)
      (hdtype : start.dtype = v.value.dtype) := exists_runFrom_forVector v.element (v.value.peek before) hpacked hcontext htotals
    fun index heap hspares => hfinds hhosted hdtype [index] heap hspares
  cases r with
  | sum v | accumulate v _ => exact hadd v hvisited hpacked hdtype
  | sumMatrix m =>
    exact exists_runFrom_forMatrix m.element (m.value.peek before) hpacked hcontext htotals
      fun row column heap hspares => hfinds hvisited hdtype [row, column] heap hspares
  | dotByLoop v w =>
    obtain ⟨hother, -, hsame⟩ := hoperands
    have hproduct := exists_runFrom_forVector (fun index => do
        let x ← v.element index
        let y ← w.element index
        Scalar.combine .mul x y) ((dotByLoop v w).term before) hpacked hcontext htotals
      fun index heap hspares => Scalar.Finds.mul (hactive heap)
        (hfinds hvisited hdtype [index] heap hspares) (hfinds hother (hdtype.trans hsame.symm) [index] heap hspares)
    simp only [bind_assoc] at hproduct
    exact hproduct

/-- The terms are found where the elements are, one for each coordinate. -/
theorem forall₂_of_terms {terms : List (Except ValueError Numeric)} (h : r.Takes before) (hterms : r.terms before = .ok terms) :
    List.Forall₂ (fun coordinates t => r.term before coordinates = liftM t) (Layout.rowMajor r.visited.layout.extents) terms := by
  have helements {value : Value} {xs : List Numeric} (hxs : value.elements before = .ok xs) :
      List.Forall₂ (fun coordinates t => value.peek before coordinates = liftM t) (Layout.rowMajor value.layout.extents)
        (xs.map (Except.ok (ε := ValueError))) :=
    List.forall₂_map_right_iff.mpr (mapM_eq_ok_iff.mp hxs)
  obtain ⟨-, ⟨packed, hpacked⟩, hoperands⟩ := h
  cases r with
  | sum | accumulate | sumMatrix =>
    obtain ⟨xs, hxs, hterms⟩ := bind_eq_ok_iff.mp hterms
    cases hterms
    exact helements hxs
  | dotByLoop v w =>
    obtain ⟨xs, hxs, hterms⟩ := bind_eq_ok_iff.mp hterms
    obtain ⟨ys, hys, hterms⟩ := bind_eq_ok_iff.mp hterms
    cases hterms
    obtain ⟨count, hcount⟩ := Vector.exists_size hpacked
    have hextents := Vector.extents_eq_of_size (hoperands.2.1.trans hcount) hcount
    have hys := mapM_eq_ok_iff.mp hys
    rw [hextents] at hys
    refine forall₂_zipWith (fun coordinates x y hx hy => ?_) (mapM_eq_ok_iff.mp hxs) hys
    rw [term, hx, ok_bind, hy, ok_bind]

/-- Few enough coordinates lead to terms. Each of them can be passed to an
    access, and the access finds an element. -/
theorem exists_terms (h : r.Takes before) (hcount : Word.Signed r.visited.layout.extents.prod) :
    ∃ terms, r.terms before = .ok terms := by
  obtain ⟨hvisited, ⟨packed, hpacked⟩, hoperands⟩ := h
  obtain ⟨xs, hxs⟩ := hvisited.exists_elements hcount
  cases r with
  | sum | accumulate | sumMatrix => exact ⟨_, bind_eq_ok_iff.mpr ⟨xs, hxs, rfl⟩⟩
  | dotByLoop v w =>
    obtain ⟨count, hsize⟩ := Vector.exists_size hpacked
    obtain ⟨ys, hys⟩ := hoperands.1.exists_elements (Vector.extents_eq_of_size hsize (hoperands.2.1.trans hsize) ▸ hcount)
    exact ⟨_, bind_eq_ok_iff.mpr ⟨xs, hxs, bind_eq_ok_iff.mpr ⟨ys, hys, rfl⟩⟩⟩

/-- A reduction leaves what its terms come to in storage that was not there. If
    it comes to nothing it fails with the first failure of its fold. -/
theorem exists_runFrom_run (hcontext : world.contexts.head? = some .compute) (h : r.Takes world.heap) :
    ∃ heap, world.heap.Spares world.heap.buffers.size heap ∧
      r.run.runFrom world = ((r.total world.heap).map fun _ => .next world.heap r.visited.dtype, { world with heap }) ∧
      ∀ z, r.total world.heap = .ok z → (Scalar.next world.heap r.visited.dtype).value.held heap = .ok z := by
  obtain ⟨start, hstart, hdtype⟩ := exists_start h
  obtain ⟨between, hbegin, htotals⟩ := exists_runFrom_begin h hcontext hstart
  have hcontext' : ({ world with heap := between } : World σ).contexts.head? = some .compute := hcontext
  obtain ⟨heap, hadd, hspares, hafter⟩ := exists_runFrom_addInto h hcontext' htotals hdtype
  have htotal : r.total world.heap = start.addAll (r.term world.heap) (Layout.rowMajor r.visited.layout.extents) := by
    rw [total, hstart, ok_bind]
  refine ⟨heap, hspares, ?_, fun z hz => (hafter z (htotal ▸ hz)).held_eq _⟩
  rw [hdtype] at hadd
  rw [runFrom_run h, Stateful.runFrom_bind_of_ok hbegin, Stateful.runFrom_bind, hadd, htotal]
  cases start.addAll (r.term world.heap) (Layout.rowMajor r.visited.layout.extents) <;> rfl

/-- What a reduction comes to is the fold of its terms. -/
theorem exists_total_eq_fold (h : r.Takes before) {terms : List (Except ValueError Numeric)}
    (hterms : r.terms before = .ok terms) :
    ∃ start, r.start before = .ok start ∧ r.total before = liftM (start.fold terms) := by
  obtain ⟨start, hstart, -⟩ := exists_start h
  refine ⟨start, hstart, ?_⟩
  rw [total, hstart, ok_bind]
  exact Numeric.addAll_eq_fold (forall₂_of_terms h hterms) start

/-- Six numbers, the odd ones of which belong to a vector. -/
def spaced : World Unit where
  heap := ⟨#[⟨.i32, #[.i32 9, .i32 1, .i32 9, .i32 2, .i32 9, .i32 3], by decide⟩]⟩
  contexts := [.compute]
  client := ()

def oddOnes : Vector := ⟨⟨.i32, ⟨[3], [2]⟩, .host ⟨0⟩ 1⟩, rfl⟩

/-- The second element of the vector, in its place. -/
def secondOdd : Scalar := ⟨⟨.i32, .scalar, .host ⟨0⟩ 3⟩, rfl⟩

/-- The elements at odd places can be accumulated onto the second of them,
    though the two share storage. -/
theorem takes_oddOnes : (accumulate oddOnes secondOdd).Takes spaced.heap := by
  refine ⟨⟨⟨⟨rfl, rfl⟩, fun ref offset hdata => ?_⟩, rfl⟩, ⟨_, rfl⟩, rfl, .inr ⟨⟨⟨rfl, rfl⟩, fun ref offset hdata => ?_⟩, rfl⟩⟩
  all_goals
    cases hdata
    decide

end Reduction

end StagedArrays
