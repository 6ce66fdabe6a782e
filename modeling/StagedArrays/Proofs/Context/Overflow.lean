import StagedArrays.Allocator
import StagedArrays.Proofs.Context.Orders

namespace StagedArrays

/-- An overflow: of word arithmetic, or of the capacity of storage. Other faults
    break a rule of the library. -/
def Fault.IsOverflow (fault : Fault) : Prop :=
  fault = .addOverflow ∨ fault = .multiplyOverflow ∨ fault = .capacityOverflow

/-- An error, or an overflow. These are the failures that a caller can bring
    about by its values alone. -/
def Failure.Plain {ε : Type} : Failure ε → Prop
  | error _ => True
  | fault found => found.IsOverflow

/-- An error, and no fault. The caller can go on from it. -/
def Failure.IsError {ε : Type} : Failure ε → Prop
  | error _ => True
  | fault _ => False

/-- Where there is no result, there is a reason of a given kind. Nothing is said
    about when there is one. -/
def FailsOnly {ε α : Type} (reason : ε → Prop) (x : Except ε α) : Prop := ∀ e, x = .error e → reason e

namespace FailsOnly

variable {ε ε' α β : Type} {reason : ε → Prop} {reason' : ε' → Prop}

theorem ok (a : α) : FailsOnly reason (.ok a) := fun _ h => nomatch h

theorem of_error {e : ε} (h : reason e) : FailsOnly reason (.error e : Except ε α) := by
  rintro _ ⟨⟩
  exact h

/-- A computation in two parts fails for the reasons of either. The second part
    is looked at for every value. -/
theorem bind {x : Except ε α} {f : α → Except ε β} (h : FailsOnly reason x) (hf : ∀ a, FailsOnly reason (f a)) :
    FailsOnly reason (x >>= f) := by
  cases x with
  | error e => exact of_error (h e rfl)
  | ok a => exact hf a

/-- A fold fails for the reasons of its steps. By induction on the list. -/
theorem foldlM {f : β → α → Except ε β} (h : ∀ b a, FailsOnly reason (f b a)) (xs : List α) (b : β) :
    FailsOnly reason (xs.foldlM f b) := by
  induction xs generalizing b with
  | nil => exact ok b
  | cons x xs ih => exact bind (h b x) ih

/-- Where errors are translated, the reasons are too. A new reason has to cover
    what becomes of the old ones. -/
theorem mapError {x : Except ε α} {f : ε → ε'} (h : FailsOnly reason x) (hf : ∀ e, reason e → reason' (f e)) :
    FailsOnly reason' (x.mapError f) := by
  cases x with
  | error e => exact of_error (hf e (h e rfl))
  | ok a => exact ok a

theorem any (x : Except ε α) : FailsOnly (fun _ => True) x := fun _ _ => trivial

/-- A computation that only fails is nothing but plain. -/
theorem plain (x : Except ε α) : FailsOnly Failure.Plain (liftM x : Except (Failure ε) α) :=
  mapError (.any x) fun _ _ => trivial

theorem plain_fault {x : Except Fault α} (h : FailsOnly Fault.IsOverflow x) :
    FailsOnly Failure.Plain (liftM x : Except (Failure ε) α) := mapError h fun _ => id

theorem plain_layoutError (x : Except LayoutError α) : FailsOnly Failure.Plain (liftM x : Outcome α) :=
  mapError (.any x) fun _ _ => trivial

/-- Wrapping an error in the error of a caller leaves the way of failing
    plain. -/
theorem map_plain {x : Except (Failure ε) α} (f : ε → ε') (h : FailsOnly Failure.Plain x) :
    FailsOnly Failure.Plain (x.mapError (Failure.map f)) := by
  refine mapError h fun failure hplain => ?_
  cases failure with
  | error cause => trivial
  | fault found => exact hplain

theorem plain_layoutFailure {x : Except (Failure LayoutError) α} (h : FailsOnly Failure.Plain x) :
    FailsOnly Failure.Plain (liftM x : Outcome α) := map_plain ValueError.layout h

end FailsOnly

/-- A sum of machine words is computed, or it overflows. -/
theorem Word.add_fails (a b : Nat) : FailsOnly Fault.IsOverflow (Word.add a b) := by
  unfold Word.add
  split
  · exact .ok _
  · exact .of_error (.inl rfl)

/-- A product of machine words is computed, or it overflows. -/
theorem Word.mul_fails (a b : Nat) : FailsOnly Fault.IsOverflow (Word.mul a b) := by
  unfold Word.mul
  split
  · exact .ok _
  · exact .of_error (.inr (.inl rfl))

/-- Storage is made, or its size in bytes passes the limit of a single
    allocation. There is no error for this, only the overflow of a capacity. -/
theorem HostBuffer.allocate_fails (dtype : DType) (length : Nat) :
    FailsOnly Fault.IsOverflow (allocate dtype length) := by
  rcases dtype.reserve_cases length with hroom | hroom
  · rw [allocate_of_reserve hroom]
    exact .ok _
  · rw [allocate_of_reserve_error hroom]
    exact .of_error (.inr (.inr rfl))

namespace Layout

/-- Packed increments fail for overflow only. By induction on the extents. -/
theorem packedIncrements_fails (extents : List Nat) : FailsOnly Fault.IsOverflow (packedIncrements extents) := by
  induction extents with
  | nil => exact .ok _
  | cons extent extents ih => exact .bind ih fun _ => .bind (Word.mul_fails _ _) fun _ => .ok _

theorem contiguous_fails (layout : Layout) : FailsOnly Fault.IsOverflow layout.contiguous :=
  .bind (packedIncrements_fails _) fun _ => .ok _

theorem elementCount_fails (layout : Layout) : FailsOnly Fault.IsOverflow layout.elementCount :=
  .foldlM Word.mul_fails _ _

/-- So does a span. By induction on the dimensions. -/
theorem spanFrom_fails (total : Nat) (dims : List (Nat × Nat)) : FailsOnly Fault.IsOverflow (spanFrom total dims) := by
  induction dims generalizing total with
  | nil => exact .ok _
  | cons dim dims ih => exact .bind (Word.mul_fails _ _) fun _ => .bind (Word.add_fails _ _) fun _ => ih _

/-- The memory size of a layout is computed, or a sum or a product on the way
    overflows. -/
theorem memorySize_fails (layout : Layout) : FailsOnly Fault.IsOverflow layout.memorySize := by
  unfold memorySize
  split
  · exact .ok _
  · exact .bind (spanFrom_fails _ _) fun _ => Word.add_fails _ _

/-- An offset is computed, or a coordinate is refused, or the computation
    overflows. Which of the last two comes first depends on the order of the
    coordinates. -/
theorem offset_fails (layout : Layout) (coordinates : List Nat) : FailsOnly Failure.Plain (layout.offset coordinates) := by
  have hfrom (dim total : Nat) (extents increments coordinates : List Nat) :
      FailsOnly Failure.Plain (offsetFrom dim total extents increments coordinates) := by
    fun_induction offsetFrom dim total extents increments coordinates with
    | case1 => exact .of_error trivial
    | case2 dim total extent extents increment increments index coordinates _ ih =>
      exact .bind (.plain_fault (Word.mul_fails _ _)) fun _ => .bind (.plain_fault (Word.add_fails _ _)) ih
    | case3 => exact .ok _
  exact .bind (.plain _) fun _ => hfrom _ _ _ _ _

end Layout

/-- A value is made, or the parts it is made from are refused, or its memory
    size overflows. -/
theorem Value.make_fails (heap : Heap) (dtype : DType) (layout : Layout) (data : ValueData) :
    FailsOnly Failure.Plain (make heap dtype layout data) := by
  have hrank : FailsOnly Failure.Plain (liftM (layout.ensureRank 0) : Outcome Unit) := .plain_layoutError _
  cases data with
  | constant x =>
    unfold make
    dsimp only
    split
    · exact .of_error trivial
    · exact .bind hrank fun _ => .ok _
  | register id => exact .bind hrank fun _ => .ok _
  | buffer id place => exact .ok _
  | host ref offset =>
    have hneeded (next : Nat → Outcome Value) (hnext : ∀ needed, FailsOnly Failure.Plain (next needed)) :
        FailsOnly Failure.Plain (do next (← Word.add offset (← layout.memorySize)) : Outcome Value) :=
      .bind (.plain_fault layout.memorySize_fails) fun _ => .bind (.plain_fault (Word.add_fails _ _)) hnext
    unfold make
    dsimp only
    split
    · exact .of_error trivial
    · refine hneeded _ fun needed => ?_
      split
      · exact .of_error trivial
      · exact .ok _

namespace Stateful

variable {ε ε' σ τ α β : Type}

/-- Where an action has no result, it is for a reason of a given kind, whatever
    state it starts from. -/
def Fails (reason : Failure ε → Prop) (action : Stateful ε σ α) : Prop :=
  ∀ state, FailsOnly reason (action.runFrom state).1

namespace Fails

variable {reason reason' : Failure ε → Prop}

theorem mono {action : Stateful ε σ α} (h : Fails reason action) (himp : ∀ failure, reason failure → reason' failure) :
    Fails reason' action := fun state failure hfails => himp failure (h state failure hfails)

/-- A sequence fails only in the way that its parts do. -/
theorem bind {action : Stateful ε σ α} {next : α → Stateful ε σ β} (h : Fails reason action)
    (hnext : ∀ a, Fails reason (next a)) : Fails reason (action >>= next) := by
  intro state
  have hfirst := h state
  rw [runFrom_bind]
  rcases hrun : action.runFrom state with ⟨failure | a, after⟩
  · rw [hrun] at hfirst
    exact .of_error (hfirst failure rfl)
  · exact hnext a after

theorem focus (split : σ → τ × (τ → σ)) {action : Stateful ε τ α} (h : Fails reason action) :
    Fails reason (focus split action) := fun state => h (split state).1

theorem repeatFrom {body : Nat → Stateful ε σ Unit} (h : ∀ index, Fails reason (body index)) :
    ∀ count first, Fails reason (repeatFrom body count first)
  | 0, _ => fun _ => .ok _
  | count + 1, first => .bind (h first) fun _ => Fails.repeatFrom h count (first + 1)

end Fails

/-- Where an action has no result, it is for an error or for an overflow. It is
    proved of operations one by one, and of programs by the rules below. -/
def Plain (action : Stateful ε σ α) : Prop := ∀ state, FailsOnly Failure.Plain (action.runFrom state).1

namespace Plain

theorem pure (a : α) : Plain (pure a : Stateful ε σ α) := fun _ => .ok a

theorem fail (cause : ε) : Plain (fail cause : Stateful ε σ α) := fun _ => .of_error trivial

theorem lift {m : Type → Type} [MonadLiftT m (Except (Failure ε))] {x : m α}
    (h : FailsOnly Failure.Plain (liftM x : Except (Failure ε) α)) : Plain (liftM x : Stateful ε σ α) := fun _ => h

theorem get : Plain (get : Stateful ε σ σ) := fun state => .ok state

theorem set (next : σ) : Plain (set next : Stateful ε σ PUnit) := fun _ => .ok _

theorem modify (f : σ → σ) : Plain (modify f : Stateful ε σ PUnit) := fun _ => .ok _

theorem bind {action : Stateful ε σ α} {next : α → Stateful ε σ β} (h : Plain action) (hnext : ∀ a, Plain (next a)) :
    Plain (action >>= next) := Fails.bind h hnext

/-- What has been attempted gives plain failures to go on from. What is passed
    on is then plain again. -/
theorem attempt_bind {action : Stateful ε σ α} {next : Except (Failure ε) α → Stateful ε σ β} (h : Plain action)
    (hnext : ∀ outcome, FailsOnly Failure.Plain outcome → Plain (next outcome)) : Plain (attempt action >>= next) := by
  intro state
  rw [runFrom_bind, runFrom_attempt]
  exact hnext _ (h state) _

/-- An outcome that is settled fails as it is. This is how computed values enter
    an action. -/
theorem settle {outcome : Except (Failure ε) α} (h : FailsOnly Failure.Plain outcome) :
    Plain (settle outcome : Stateful ε σ α) := by
  intro state
  rw [runFrom_settle]
  exact h

theorem throw {failure : Failure ε} (h : failure.Plain) : Plain (throw failure : Stateful ε σ α) := fun _ => .of_error h

/-- A loop fails plainly if its body does. By induction on the list. -/
theorem forM {xs : List α} {body : α → Stateful ε σ Unit} (h : ∀ x, Plain (body x)) : Plain (xs.forM body) := by
  induction xs with
  | nil => exact .pure _
  | cons x xs ih => exact .bind (h x) fun _ => ih

theorem focus (split : σ → τ × (τ → σ)) {action : Stateful ε τ α} (h : Plain action) : Plain (focus split action) :=
  Fails.focus split h

theorem mapCause (f : ε → ε') {action : Stateful ε σ α} (h : Plain action) : Plain (action.mapCause f) := by
  intro state
  rw [runFrom_mapCause]
  exact .map_plain f (h state)

end Plain

end Stateful

open Stateful (Plain)

namespace Direct

/-- To read a value fails plainly. It may be foreign, of another rank, or out of
    range. -/
theorem plain_read (value : Value) : Plain (read value) := by
  unfold read
  refine .bind (.lift (.plain_layoutError _)) fun _ => ?_
  split
  · exact .pure _
  · exact .bind (.bind .get fun _ => .pure _) fun buffer => by
      split
      · exact .pure _
      · exact .fail _
  · exact .fail _
  · exact .fail _

theorem plain_readIndices (scalars : List Scalar) : Plain (readIndices scalars) := by
  induction scalars with
  | nil => exact .pure _
  | cons coordinate rest ih =>
    exact .bind (.bind (plain_read _) fun _ => .lift (.plain _)) fun _ => .bind ih fun _ => .pure _

/-- To take storage fails plainly. Its size may overflow, or exceed the capacity
    of storage. -/
theorem plain_allocate (dtype : DType) (layout : Layout) : Plain (allocate dtype layout) := by
  refine .bind (.lift (.plain_fault layout.memorySize_fails)) fun _ => ?_
  refine .bind (.lift (.plain_fault (HostBuffer.allocate_fails _ _))) fun _ => ?_
  exact .bind (.bind .get fun _ => .bind (.set _) fun _ => .pure _) fun _ =>
    .bind .get fun heap => .lift (Value.make_fails heap _ _ _)

/-- To find an element fails plainly. A coordinate may be out of bounds, or its
    offset overflow. -/
theorem plain_element (value : Value) (coordinates : List Scalar) : Plain (element value coordinates) := by
  unfold element
  refine .bind (.lift (.plain_layoutError _)) fun _ => .bind (plain_readIndices _) fun indices => ?_
  split
  · refine .bind (.lift (.plain_layoutFailure (Layout.offset_fails _ _))) fun _ => ?_
    exact .bind (.lift (.plain_fault (Word.add_fails _ _))) fun _ => .bind .get fun heap => .lift (Value.make_fails heap _ _ _)
  · exact .pure _
  · exact .fail _
  · exact .fail _

/-- To store to a value fails plainly. Nothing is written where there is an
    error. -/
theorem plain_store (destination source : Value) : Plain (store destination source) := by
  unfold store
  refine .bind (.lift (.plain_layoutError _)) fun _ => .bind (.lift (.plain _)) fun _ => .bind (plain_read _) fun x => ?_
  split
  · exact .bind (.bind .get fun _ => .pure _) fun _ => .bind (.lift (.plain _)) fun _ => .modify _
  · exact .fail _
  · exact .fail _
  · exact .fail _

theorem plain_binary (op : BinaryOp) (a b : Value) : Plain (binary op a b) :=
  .bind (plain_read a) fun _ => .bind (plain_read b) fun _ => .bind (.lift (.plain _)) fun _ => .pure _

end Direct

namespace Emitter

theorem plain_builder : Plain builder := by
  unfold builder
  refine .bind .get fun emitter => ?_
  split
  · exact .pure _
  · exact .fail _

theorem plain_setBuilder (builder : FunctionBuilder) : Plain (setBuilder builder) := .modify _

theorem plain_emitWithOutput (instruction : RegisterId → Instruction) : Plain (emitWithOutput instruction) :=
  .bind plain_builder fun _ => .bind (plain_setBuilder _) fun _ => .pure _

theorem plain_binaryOperand (op : BinaryOp) (a b : Operand) : Plain (binaryOperand op a b) := by
  unfold binaryOperand
  split
  · exact .bind (.lift (.plain _)) fun _ => .pure _
  · exact .bind (plain_emitWithOutput _) fun _ => .pure _

end Emitter

namespace Emit

/-- To load an operand fails plainly. It is an error if the value belongs
    elsewhere. -/
theorem plain_operand (value : Value) : Plain (operand value) := by
  unfold operand
  refine .bind (.lift (.plain_layoutError _)) fun _ => ?_
  split
  · exact .pure _
  · exact .pure _
  · exact .bind (Emitter.plain_emitWithOutput _) fun _ => .pure _
  · exact .fail _

theorem plain_indexOperand (coordinate : Scalar) (extent : Nat) : Plain (indexOperand coordinate extent) := by
  unfold indexOperand
  split
  · refine .bind (.lift (.plain _)) fun index => ?_
    split
    · exact .fail _
    · exact .pure _
  · exact .bind (.lift (.plain _)) fun _ => plain_operand _

/-- To record the offset of an element fails plainly. By induction on the
    dimensions. -/
theorem plain_offsetOperand (offset : Operand) (extents increments : List Nat) (coordinates : List Scalar) :
    Plain (offsetOperand offset extents increments coordinates) := by
  induction extents generalizing offset increments coordinates with
  | nil => exact .pure _
  | cons extent extents ih =>
    rcases increments with _ | ⟨increment, increments⟩
    · exact .pure _
    rcases coordinates with _ | ⟨coordinate, coordinates⟩
    · exact .pure _
    exact .bind (plain_indexOperand _ _) fun _ => .bind (Emitter.plain_binaryOperand _ _ _) fun _ =>
      .bind (Emitter.plain_binaryOperand _ _ _) fun _ => ih _ _ _

theorem plain_allocate (dtype : DType) (layout : Layout) : Plain (allocate dtype layout) := by
  have htotal (declarations : List BufferDeclaration) : FailsOnly Fault.IsOverflow (BufferDeclaration.totalBytes declarations) :=
    .foldlM (fun total (declaration : BufferDeclaration) =>
      .bind (Word.mul_fails declaration.length declaration.dtype.size) fun bytes => Word.add_fails total bytes) declarations 0
  unfold allocate
  refine .bind .get fun emitter => .bind Emitter.plain_builder fun builder => ?_
  dsimp only
  split
  · exact .fail _
  · refine .bind (.lift (.plain_fault (htotal _))) fun _ => .bind (.lift (.plain_fault layout.memorySize_fails)) fun _ => ?_
    refine .bind (.lift (.plain_fault (Word.mul_fails _ _))) fun _ => .bind (.lift (.plain_fault (Word.add_fails _ _))) fun _ => ?_
    split
    · exact .fail _
    · exact .bind (Emitter.plain_setBuilder _) fun _ => .pure _

theorem plain_element (value : Value) (coordinates : List Scalar) : Plain (element value coordinates) := by
  unfold element
  refine .bind (.lift (.plain_layoutError _)) fun _ => ?_
  split
  · exact .bind (plain_offsetOperand _ _ _ _) fun _ => .pure _
  · exact .pure _
  · exact .pure _
  · exact .fail _

theorem plain_store (destination source : Value) : Plain (store destination source) := by
  unfold store
  refine .bind (.lift (.plain_layoutError _)) fun _ => .bind (.lift (.plain _)) fun _ => ?_
  split
  · exact .bind (plain_operand _) fun _ => .bind Emitter.plain_builder fun _ => Emitter.plain_setBuilder _
  · exact .fail _
  · exact .fail _
  · exact .fail _

theorem plain_binary (op : BinaryOp) (a b : Value) : Plain (binary op a b) :=
  .bind (.lift (.plain _)) fun _ => .bind (plain_operand a) fun _ => .bind (plain_operand b) fun _ =>
    .bind (Emitter.plain_binaryOperand _ _ _) fun _ => .pure _

/-- To open loops fails plainly. It is an error if no function is in
    progress. -/
theorem plain_openLoops (extents : List Nat) : Plain (openLoops extents) := by
  induction extents with
  | nil => exact .pure _
  | cons extent extents ih =>
    exact .bind Emitter.plain_builder fun _ => .bind (Emitter.plain_setBuilder _) fun _ => .bind ih fun _ => .pure _

/-- To close them does so as well. Only loops that were opened are closed. -/
theorem plain_closeLoops (registers : List RegisterId) (extents : List Nat) : Plain (closeLoops registers extents) := by
  induction registers generalizing extents with
  | nil => exact .pure _
  | cons register registers ih =>
    cases extents with
    | nil => exact .pure _
    | cons extent extents =>
      exact .bind (ih extents) fun _ => .bind Emitter.plain_builder fun _ => Emitter.plain_setBuilder _

end Emit

namespace Context

variable {σ : Type} (context : Context)

theorem plain_allocate (dtype : DType) (layout : Layout) : Plain (context.allocate dtype layout : Action σ Value) := by
  cases context with
  | compute => exact .focus _ (Direct.plain_allocate dtype layout)
  | emitter id => exact .focus _ (Emit.plain_allocate dtype layout)

theorem plain_element (value : Value) (coordinates : List Scalar) :
    Plain (context.element value coordinates : Action σ Value) := by
  cases context with
  | compute => exact .focus _ (Direct.plain_element value coordinates)
  | emitter id => exact .focus _ (Emit.plain_element value coordinates)

theorem plain_load (value : Value) : Plain (context.load value : Action σ Value) := by
  cases context with
  | compute => exact .focus _ (.bind (Direct.plain_read value) fun _ => .pure _)
  | emitter id => exact .focus _ (.bind (Emit.plain_operand value) fun _ => .pure _)

theorem plain_store (destination source : Value) : Plain (context.store destination source : Action σ Unit) := by
  cases context with
  | compute => exact .focus _ (Direct.plain_store destination source)
  | emitter id => exact .focus _ (Emit.plain_store destination source)

theorem plain_binary (op : BinaryOp) (a b : Value) : Plain (context.binary op a b : Action σ Value) := by
  cases context with
  | compute => exact .focus _ (Direct.plain_binary op a b)
  | emitter id => exact .focus _ (Emit.plain_binary op a b)

/-- A loop fails plainly if its body does. Its own part, the bounds and the
    registers, cannot fail at all. -/
theorem plain_forEach (layout : Layout) {body : List Scalar → Action σ Unit} (hbody : ∀ coordinates, Plain (body coordinates)) :
    Plain (context.forEach layout body) := by
  cases context with
  | compute =>
    rw [forEach, Layout.forCoordinates_eq]
    exact .forM fun _ => hbody _
  | emitter id =>
    refine .bind (.focus _ (Emit.plain_openLoops _)) fun registers => .attempt_bind (hbody _) fun result hresult => ?_
    have hclose : Plain (do
        Action.onEmitter id (Emit.closeLoops registers layout.extents)
        Stateful.settle result : Action σ Unit) :=
      .bind (.focus _ (Emit.plain_closeLoops _ _)) fun _ => .settle hresult
    rcases result with (cause | fault) | ⟨⟩
    · exact hclose
    · exact .throw (hresult _ rfl)
    · exact hclose

end Context

theorem Action.plain_activeContext {σ : Type} : Plain (Action.activeContext : Action σ Context) := by
  unfold Action.activeContext
  refine .bind .get fun world => ?_
  split
  · exact .pure _
  · exact .fail _

namespace Elementwise

variable {σ : Type}

theorem plain_copyInto (destination source : Value) : Plain (copyInto destination source : Action σ Unit) := by
  have hcopyAt (context : Context) (coordinates : List Scalar) :
      Plain (copyAt context destination source coordinates : Action σ Unit) :=
    .bind (context.plain_element _ _) fun _ => .bind (context.plain_element _ _) fun _ =>
      .bind (context.plain_load _) fun _ => context.plain_store _ _
  have hrest : Plain (Action.activeContext >>= fun context => context.forEach source.layout (copyAt context destination source) :
      Action σ Unit) := .bind Action.plain_activeContext fun context => context.plain_forEach _ (hcopyAt context)
  unfold copyInto
  refine .bind (.lift (.plain _)) fun _ => ?_
  split
  · exact .bind (.lift (.plain_fault destination.layout.elementCount_fails)) fun _ =>
      .bind (.lift (.plain_fault source.layout.elementCount_fails)) fun _ => .bind (.throw trivial) fun _ => hrest
  · exact hrest

theorem plain_assignBinary (op : BinaryOp) (destination source : Value) :
    Plain (assignBinary op destination source : Action σ Unit) := by
  have hsource (context : Context) (coordinates : List Scalar) :
      Plain (sourceElement context source coordinates : Action σ Value) := by
    unfold sourceElement
    split
    · exact .pure _
    · exact context.plain_element _ _
  have hupdateAt (context : Context) (coordinates : List Scalar) :
      Plain (updateAt context (context.binary op) destination source coordinates : Action σ Unit) :=
    .bind (context.plain_element _ _) fun _ => .bind (hsource context coordinates) fun _ =>
      .bind (context.plain_binary op _ _) fun _ => context.plain_store _ _
  have hcheck : FailsOnly Failure.Plain (checkOperands destination source) := by
    unfold checkOperands
    refine .bind (.plain _) fun _ => ?_
    split
    · exact .bind (.plain_fault destination.layout.elementCount_fails) fun _ =>
        .bind (.plain_fault source.layout.elementCount_fails) fun _ => .of_error trivial
    · exact .ok _
  unfold assignBinary update
  refine .bind (.lift hcheck) fun _ => ?_
  split
  · exact .bind Action.plain_activeContext fun context => context.plain_forEach _ (hupdateAt context)
  · exact .fail _

end Elementwise

namespace StorageM

variable {σ : Type}

theorem plain_onWorld {α : Type} {action : Action σ α} (h : Plain action) : Plain (onWorld action) := .focus _ (h.mapCause _)

theorem plain_allocate (dtype : DType) (layout : Layout) : Plain (allocate dtype layout : StorageM σ Variable) := by
  have hscope (context : Context) : Plain (context.storageScope : Action σ Nat) := by
    cases context with
    | compute => exact .pure _
    | emitter id => exact .focus _ (.bind .get fun _ => .pure _)
  unfold allocate
  refine .bind (plain_onWorld Action.plain_activeContext) fun context => .bind (plain_onWorld (hscope context)) fun scope => ?_
  refine .bind (.lift (.plain_fault layout.memorySize_fails)) fun needed => .bind .get fun storage => ?_
  dsimp only
  split
  · exact .bind (plain_onWorld (.focus _ (.bind .get fun heap => .lift (Value.make_fails heap _ _ _)))) fun _ =>
      .bind (.modify _) fun _ => .pure _
  · split
    · exact .fail _
    · exact .bind (plain_onWorld (context.plain_allocate dtype layout)) fun _ => .bind (.modify _) fun _ => .pure _

theorem plain_free (v : Variable) : Plain (free v : StorageM σ Unit) :=
  .bind .get fun _ => .bind (.lift (.plain _)) fun _ => .modify _

end StorageM

end StagedArrays
