import StagedArrays.Proofs.Kernel.Dot
import StagedArrays.Proofs.Storage.Handing

namespace StagedArrays

open Stateful (Hands Moves)

namespace Action

variable {σ α β : Type} {world : World σ} {post : Heap → β → Prop}

/-- The active context hands out nothing. What comes next may be in any
    context. -/
theorem hands_activeContext_bind {next : Context → Action σ β}
    (hnext : ∀ context after, world.heap.Advances after.heap → Hands World.heap (next context) after post) :
    Hands World.heap (activeContext >>= next) world post :=
  .bind_moves World.Advances.heap moves_activeContext hnext

/-- An action that only moves the heap on goes first. Buffers that there were
    are there for what comes next. -/
theorem hands_moves_bind {action : Action σ α} {next : α → Action σ β} (h : Moves World.Advances action)
    (hnext : ∀ a after, world.heap.Advances after.heap → Hands World.heap (next a) after post) :
    Hands World.heap (action >>= next) world post :=
  .bind_moves World.Advances.heap h hnext

end Action

open StagedArrays.Action (hands_activeContext_bind hands_moves_bind)
open Context (follows_advances)

variable {σ : Type} {world : World σ}

namespace Scalar

/-- A scalar lies within its storage. -/
abbrev Fits (heap : Heap) (s : Scalar) : Prop := s.value.Fits heap

theorem hands_ofValue {value : Value} (h : value.Fits world.heap) :
    Hands World.heap (liftM (ofValue value) : Action σ Scalar) world Fits :=
  .lift fun s hs => by
    rw [Fits, ofValue_eq_ok.mp hs]
    exact h

end Scalar

namespace Vector

/-- A vector lies within its storage. -/
abbrev Fits (heap : Heap) (v : Vector) : Prop := v.value.Fits heap

theorem hands_ofValue {value : Value} (h : value.Fits world.heap) :
    Hands World.heap (liftM (ofValue value) : Action σ Vector) world Fits :=
  .lift fun v hv => by
    rw [Fits, ofValue_eq_ok.mp hv]
    exact h

end Vector

namespace Matrix

/-- A matrix lies within its storage. -/
abbrev Fits (heap : Heap) (m : Matrix) : Prop := m.value.Fits heap

theorem hands_ofValue {value : Value} (h : value.Fits world.heap) :
    Hands World.heap (liftM (ofValue value) : Action σ Matrix) world Fits :=
  .lift fun m hm => by
    rw [Fits, ofValue_eq_ok.mp hm]
    exact h

end Matrix

namespace Elementwise

/-- A copy lies within its storage. -/
theorem hands_copy (value : Value) : Hands World.heap (copy value : Action σ Value) world Value.Fits := by
  refine hands_activeContext_bind fun context _ _ => .lift_bind fun layout hlayout => ?_
  have hformed := Layout.formed_of_packed (liftM_fault_eq_ok_iff.mp hlayout)
  refine (context.hands_allocate value.dtype hformed).bind fun fresh _ _ hfresh => ?_
  exact hands_moves_bind (follows_advances.copyInto _ _) fun _ _ hadvances => .pure (hfresh.advance hadvances)

theorem hands_binary (op : BinaryOp) (lhs rhs : Value) :
    Hands World.heap (binary op lhs rhs : Action σ Value) world Value.Fits :=
  (hands_copy lhs).bind fun _ _ _ hfresh =>
    hands_moves_bind (follows_advances.assignBinary op _ _) fun _ _ hadvances => .pure (hfresh.advance hadvances)

theorem hands_binaryReversed (op : BinaryOp) (scalar operand : Value) :
    Hands World.heap (binaryReversed op scalar operand : Action σ Value) world Value.Fits :=
  (hands_copy operand).bind fun _ _ _ hfresh =>
    hands_moves_bind (follows_advances.assignBinaryReversed op _ _) fun _ _ hadvances =>
      .pure (hfresh.advance hadvances)

end Elementwise

namespace Scalar

/-- A scalar that is allocated lies within its storage. -/
theorem hands_allocate (dtype : DType) : Hands World.heap (allocate dtype : Action σ Scalar) world Fits := by
  refine hands_activeContext_bind fun context _ _ => ?_
  refine (context.hands_allocate dtype Layout.formed_scalar).bind fun value _ _ hvalue => ?_
  refine (hands_ofValue hvalue).bind fun fresh _ _ hfresh => ?_
  exact hands_moves_bind (follows_advances.scalarStore _ _) fun _ _ hadvances => .pure (hfresh.advance hadvances)

theorem hands_copy (s : Scalar) : Hands World.heap (s.copy : Action σ Scalar) world Fits :=
  (Elementwise.hands_copy s.value).bind fun _ _ _ hvalue => hands_ofValue hvalue

theorem hands_combine (op : BinaryOp) (a b : Scalar) :
    Hands World.heap (combine op a b : Action σ Scalar) world Fits :=
  hands_activeContext_bind fun context _ _ =>
    (context.hands_binary op _ _).bind fun _ _ _ hvalue => hands_ofValue hvalue

/-- A scalar with storage is handed on; any other gives way to the result. -/
theorem hands_assign {a : Scalar} (h : a.Fits world.heap) (op : BinaryOp) (b : Scalar) :
    Hands World.heap (a.assign op b : Action σ Scalar) world Fits := by
  unfold assign
  split
  · exact hands_moves_bind (follows_advances.assignBinary op _ _) fun _ _ hadvances => .pure (h.advance hadvances)
  · refine .lift_bind fun _ _ => hands_activeContext_bind fun context _ _ => ?_
    exact (context.hands_binary op _ _).bind fun _ _ _ hvalue => hands_ofValue hvalue

theorem hands_binary (op : BinaryOp) (a b : Scalar) :
    Hands World.heap (a.binary op b : Action σ Scalar) world Fits :=
  (hands_copy a).bind fun _ _ _ hcopy => hands_assign hcopy op b

end Scalar

namespace Vector

theorem hands_ofBuffer (buffer : HostBuffer) : Hands World.heap (.onHeap (ofBuffer buffer) : Action σ Vector) world Fits :=
  Action.hands_onHeap ((HeapM.hands_vector buffer).bind fun _ _ _ hvalue => .lift fun v hv => by
    rw [Fits, ofValue_eq_ok.mp hv]
    exact hvalue)

theorem hands_allocate (dtype : DType) (size : Nat) :
    Hands World.heap (allocate dtype size : Action σ Vector) world Fits := by
  refine hands_activeContext_bind fun context _ _ => .lift_bind fun layout hlayout => ?_
  have hformed := Layout.formed_of_packed (liftM_fault_eq_ok_iff.mp hlayout)
  exact (context.hands_allocate dtype hformed).bind fun _ _ _ hvalue => hands_ofValue hvalue

theorem hands_element {v : Vector} (h : v.Fits world.heap) (index : Scalar) :
    Hands World.heap (v.element index : Action σ Scalar) world Scalar.Fits :=
  hands_activeContext_bind fun context _ hadvances =>
    (context.hands_element (h.advance hadvances) _).bind fun _ _ _ hvalue => Scalar.hands_ofValue hvalue

theorem hands_copy (v : Vector) : Hands World.heap (v.copy : Action σ Vector) world Fits :=
  (Elementwise.hands_copy v.value).bind fun _ _ _ hvalue => hands_ofValue hvalue

theorem hands_binary (op : BinaryOp) (v : Vector) (operand : Value) :
    Hands World.heap (v.binary op operand : Action σ Vector) world Fits :=
  (Elementwise.hands_binary op v.value operand).bind fun _ _ _ hvalue => hands_ofValue hvalue

/-- So does the result of combining a scalar with a vector. -/
theorem hands_scalarFirst (op : BinaryOp) (s : Scalar) (v : Vector) :
    Hands World.heap (scalarFirst op s v : Action σ Vector) world Fits := by
  have hreversed : Hands World.heap (do ofValue (← Elementwise.binaryReversed op s.value v.value) : Action σ Vector)
      world Fits :=
    (Elementwise.hands_binaryReversed op s.value v.value).bind fun _ _ _ hvalue => hands_ofValue hvalue
  cases op with
  | add => exact hands_binary .add v s.value
  | mul => exact hands_binary .mul v s.value
  | sub => exact hreversed
  | div => exact hreversed

/-- What follows a total that has been made leaves it where it is. -/
theorem hands_total {total : Action σ Scalar} {add : Scalar → Action σ Unit}
    (h : Hands World.heap total world Scalar.Fits) (hadd : ∀ s, Moves World.Advances (add s)) :
    Hands World.heap (do
      let s ← total
      add s
      return s) world Scalar.Fits :=
  h.bind fun s _ _ hs => hands_moves_bind (hadd s) fun _ _ hadvances => .pure (hs.advance hadvances)

theorem hands_accumulate (v : Vector) (initial : Scalar) :
    Hands World.heap (v.accumulate initial : Action σ Scalar) world Scalar.Fits :=
  hands_total (Scalar.hands_copy initial) (follows_advances.addInto v)

theorem hands_sum (v : Vector) : Hands World.heap (v.sum : Action σ Scalar) world Scalar.Fits :=
  hands_total (Scalar.hands_allocate v.dtype) (follows_advances.addInto v)

/-- The total of an inner product lies within its storage. -/
theorem hands_dotByLoop (v w : Vector) : Hands World.heap (v.dotByLoop w : Action σ Scalar) world Scalar.Fits := by
  have hbody (total index : Scalar) : Moves World.Advances (do
      let x ← v.element index
      let y ← w.element index
      discard (total.assign .add (← Scalar.combine .mul x y)) : Action σ Unit) :=
    .bind (follows_advances.vectorElement v index) fun x => .bind (follows_advances.vectorElement w index) fun y =>
      .bind (follows_advances.scalarCombine .mul x y) fun z => .map _ (follows_advances.scalarAssign .add total z)
  have htotal : Hands World.heap _ world Scalar.Fits :=
    hands_total (Scalar.hands_allocate v.dtype) fun total => follows_advances.forVector v.value (hbody total)
  rw [dotByLoop_eq]
  refine .lift_bind fun vSize _ => .lift_bind fun wSize _ => ?_
  split
  · exact .fail _
  · exact htotal

end Vector

/-- A kernel reads buffers and writes none. -/
theorem moves_vendorDot [ArrayLibrary] {α : Type} (arithmetic : DotArithmetic α) (dtype : DType) (read : Numeric → α)
    (write : α → Numeric) (args : List HostArgument) :
    Moves Heap.Advances (vendorDot arithmetic dtype read write args) := by
  have helements (ref : HostRef) (offset : Nat) : Moves Heap.Advances (HostArgument.elementsFrom dtype ref offset) := by
    refine .bind (HeapM.moves_read ref) fun buffer => .bind (.lift _) fun elements => ?_
    split
    · exact .fail _
    · exact .pure _
  unfold vendorDot
  split
  · exact .bind (.lift _) fun x => .bind (.lift _) fun y => .bind (helements _ _) fun xs => .bind (helements _ _) fun ys =>
      .bind (.lift _) fun n => .bind (.lift _) fun incx => .bind (.lift _) fun incy => .bind (.lift _) fun z => .pure _
  · exact .fail _

namespace FunctionDeclaration

/-- So does the result of a call, if what runs on the host takes no buffer
    away. -/
theorem hands_callIn {function : FunctionDeclaration} (h : ∀ definition, function.hostDefinition = some definition →
    ∀ args, Moves Heap.Advances (definition args)) (context : Context) (args : List Value) :
    Hands World.heap (function.callIn context args : Action σ (Option Value)) world
      fun heap result => ∀ v ∈ result, v.Fits heap := by
  refine .lift_bind fun _ _ => (context.hands_call h args).bind fun result _ _ hresult => ?_
  split
  · exact .lift_bind fun _ _ => .pure hresult
  · exact .fail _
  · exact .pure hresult

/-- A call hands out values that fit, if it hands out any. Definitions on the
    host are assumed to keep the buffers there are. -/
theorem hands_call {function : FunctionDeclaration} (h : ∀ definition, function.hostDefinition = some definition →
    ∀ args, Moves Heap.Advances (definition args)) (args : List Value) :
    Hands World.heap (function.call args : Action σ (Option Value)) world
      fun heap result => ∀ v ∈ result, v.Fits heap :=
  hands_activeContext_bind fun context _ _ => hands_callIn h context args

end FunctionDeclaration

namespace Vector

/-- The same for an inner product that a kernel computes. -/
theorem hands_dotByKernel (symbol : String) {kernel : HostFunction}
    (h : ∀ args, Moves Heap.Advances (kernel args)) (v w : Vector) :
    Hands World.heap (dotByKernel symbol kernel v w : Action σ Scalar) world Scalar.Fits := by
  refine .lift_bind fun _ _ => .lift_bind fun count _ => .lift_bind fun _ _ => .lift_bind fun vIncrement _ =>
    .lift_bind fun _ _ => .lift_bind fun wIncrement _ => hands_activeContext_bind fun context _ _ => ?_
  have hkernel (definition : HostFunction)
      (hdefinition : (kernelDeclaration context.kind symbol kernel v w).hostDefinition = some definition) :
      ∀ args, Moves Heap.Advances (definition args) := by
    cases context with
    | compute =>
      cases hdefinition
      exact h
    | emitter id => cases hdefinition
  refine (FunctionDeclaration.hands_callIn hkernel context _).bind fun result _ _ hresult => ?_
  cases result with
  | some value => exact Scalar.hands_ofValue (hresult value rfl)
  | none => exact .fail _

/-- An inner product is computed in one of the two ways, and its result lies
    within its storage in both. -/
theorem hands_dot [ArrayLibrary] (v w : Vector) : Hands World.heap (v.dot w : Action σ Scalar) world Scalar.Fits := by
  have hbyType : Hands World.heap (v.dotByType w : Action σ Scalar) world Scalar.Fits := by
    unfold dotByType
    split
    · exact hands_dotByKernel _ (moves_vendorDot _ _ _ _) v w
    · exact hands_dotByKernel _ (moves_vendorDot _ _ _ _) v w
    all_goals exact hands_dotByLoop v w
  rw [dot_eq]
  refine .lift_bind fun vSize _ => .lift_bind fun wSize _ => ?_
  split
  · exact .fail _
  · split
    · exact .fail _
    · exact hbyType

end Vector

namespace Matrix

/-- A matrix that is laid over a buffer lies within it. -/
theorem hands_ofBuffer (rows columns : Nat) (buffer : HostBuffer) :
    Hands World.heap (.onHeap (ofBuffer rows columns buffer) : Action σ Matrix) world Fits := by
  refine Action.hands_onHeap (.lift_bind fun size _ => ?_)
  split
  · exact .fail _
  · refine .lift_bind fun layout hlayout => ?_
    have hformed := Layout.formed_of_packed (liftM_fault_eq_ok_iff.mp hlayout)
    refine (HeapM.hands_host buffer hformed).bind fun value _ _ hvalue => .lift fun m hm => ?_
    rw [Fits, ofValue_eq_ok.mp hm]
    exact hvalue

theorem hands_allocate (dtype : DType) (rows columns : Nat) :
    Hands World.heap (allocate dtype rows columns : Action σ Matrix) world Fits := by
  refine hands_activeContext_bind fun context _ _ => .lift_bind fun layout hlayout => ?_
  have hformed := Layout.formed_of_packed (liftM_fault_eq_ok_iff.mp hlayout)
  exact (context.hands_allocate dtype hformed).bind fun _ _ _ hvalue => hands_ofValue hvalue

theorem hands_element {m : Matrix} (h : m.Fits world.heap) (row column : Scalar) :
    Hands World.heap (m.element row column : Action σ Scalar) world Scalar.Fits :=
  hands_activeContext_bind fun context _ hadvances =>
    (context.hands_element (h.advance hadvances) _).bind fun _ _ _ hvalue => Scalar.hands_ofValue hvalue

/-- A row is made with a layout of its own, over the storage of the matrix. -/
theorem hands_row {m : Matrix} (h : m.Fits world.heap) (row : Nat) :
    Hands World.heap (.onHeap (m.row row) : Action σ Vector) world Vector.Fits := by
  refine Action.hands_onHeap (.lift_bind fun start _ => .lift_bind fun increment _ => .lift_bind fun layout hlayout => ?_)
  have hformed := Layout.formed_of_strided (liftM_layoutError_eq_ok_iff.mp hlayout)
  split
  · next ref offset hhost =>
    have hdata := Value.host?_eq_some.mp hhost
    refine HeapM.hands_get_bind (.lift_bind fun place _ => .lift_bind fun view hview => .lift fun v hv => ?_)
    rw [Vector.Fits, Vector.ofValue_eq_ok.mp hv]
    refine Value.fits_of_make hview hformed fun _ _ hsame => ?_
    cases hsame
    exact h.known ref offset hdata
  · exact .fail _

theorem hands_copy (m : Matrix) : Hands World.heap (m.copy : Action σ Matrix) world Fits :=
  (Elementwise.hands_copy m.value).bind fun _ _ _ hvalue => hands_ofValue hvalue

theorem hands_binary (op : BinaryOp) (m : Matrix) (operand : Value) :
    Hands World.heap (m.binary op operand : Action σ Matrix) world Fits :=
  (Elementwise.hands_binary op m.value operand).bind fun _ _ _ hvalue => hands_ofValue hvalue

theorem hands_sum (m : Matrix) : Hands World.heap (m.sum : Action σ Scalar) world Scalar.Fits :=
  Vector.hands_total (Scalar.hands_allocate m.dtype) fun total => follows_advances.forMatrix m.value fun row column =>
    .bind (follows_advances.matrixElement m row column) fun x => .map _ (follows_advances.scalarAssign .add total x)

end Matrix

end StagedArrays
