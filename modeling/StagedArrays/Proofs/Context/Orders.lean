import StagedArrays.Algebra.Reduce
import StagedArrays.Proofs.Context
import StagedArrays.Proofs.Layout.Coordinates
import StagedArrays.Proofs.Stateful

namespace StagedArrays

open Stateful (Moves)

/-- An order along which every operation of every context moves the world. What
    programs of operations do along it is derived once for all orders. -/
structure Context.Follows {σ : Type} (order : World σ → World σ → Prop) : Prop where
  element : ∀ (context : Context) (value : Value) (coordinates : List Scalar),
    Moves order (context.element value coordinates : Action σ Value)
  load : ∀ (context : Context) (value : Value), Moves order (context.load value : Action σ Value)
  store : ∀ (context : Context) (destination source : Value),
    Moves order (context.store destination source : Action σ Unit)
  binary : ∀ (context : Context) (op : BinaryOp) (a b : Value),
    Moves order (context.binary op a b : Action σ Value)
  openLoops : ∀ (id : EmitterId) (extents : List Nat),
    Moves order (Action.onEmitter id (Emit.openLoops extents) : Action σ (List RegisterId))
  closeLoops : ∀ (id : EmitterId) (registers : List RegisterId) (extents : List Nat),
    Moves order (Action.onEmitter id (Emit.closeLoops registers extents) : Action σ Unit)

/-- Asking for the active context changes nothing, so that it moves the world
    along every preorder. -/
theorem Action.moves_activeContext {σ : Type} {order : World σ → World σ → Prop} [IsPreorder (World σ) order] :
    Moves order (Action.activeContext : Action σ Context) := by
  refine .of_eq fun world => ?_
  rw [Action.activeContext, Stateful.runFrom_bind, Stateful.runFrom_get]
  dsimp only
  split <;> rfl

namespace Context.Follows

variable {σ : Type} {order : World σ → World σ → Prop} [IsPreorder (World σ) order]

/-- Running a body for each coordinate follows an order if the body does. The
    compute context runs the body once per coordinate, the emitter once between
    the openings and the ends of its loops. -/
theorem forEach (h : Follows order) (context : Context) (layout : Layout) {body : List Scalar → Action σ Unit}
    (hbody : ∀ coordinates, Moves order (body coordinates)) : Moves order (context.forEach layout body) := by
  cases context with
  | compute =>
    rw [Context.forEach, Layout.forCoordinates_eq]
    exact .forM fun _ => hbody _
  | emitter id =>
    refine .bind (h.openLoops id _) fun registers => .bind (.attempt (hbody _)) fun result => ?_
    rcases result with (cause | fault) | ⟨⟩
    · exact .bind (h.closeLoops id _ _) fun _ => .settle _
    · exact .throw _
    · exact .bind (h.closeLoops id _ _) fun _ => .settle _

/-- A copy follows each order that the operations of the two contexts follow,
    because it reaches the world through them only. -/
theorem copyInto (h : Follows order) (destination source : Value) :
    Moves order (Elementwise.copyInto destination source : Action σ Unit) := by
  have hcopyAt (context : Context) (coordinates : List Scalar) :
      Moves order (Elementwise.copyAt context destination source coordinates : Action σ Unit) :=
    .bind (h.element context _ _) fun _ => .bind (h.element context _ _) fun _ =>
      .bind (h.load context _) fun _ => h.store context _ _
  have hrest : Moves order (Action.activeContext >>= fun context =>
      context.forEach source.layout (Elementwise.copyAt context destination source) : Action σ Unit) :=
    .bind Action.moves_activeContext fun context => h.forEach context _ (hcopyAt context)
  unfold Elementwise.copyInto
  refine .bind (.lift _) fun _ => ?_
  split
  · exact .bind (.lift _) fun _ => .bind (.lift _) fun _ => .bind (.throw _) fun _ => hrest
  · exact hrest

/-- An element-by-element update follows such an order too, whichever way the
    two elements are combined. -/
theorem update (h : Follows order) {combine : Context → Value → Value → Action σ Value}
    (hcombine : ∀ context target other, Moves order (combine context target other)) (destination source : Value) :
    Moves order (Elementwise.update combine destination source) := by
  have hsource (context : Context) (coordinates : List Scalar) :
      Moves order (Elementwise.sourceElement context source coordinates : Action σ Value) := by
    unfold Elementwise.sourceElement
    split
    · exact .pure _
    · exact h.element context _ _
  have hupdateAt (context : Context) (coordinates : List Scalar) :
      Moves order (Elementwise.updateAt context (combine context) destination source coordinates) :=
    .bind (h.element context _ _) fun _ => .bind (hsource context coordinates) fun _ =>
      .bind (hcombine context _ _) fun _ => h.store context _ _
  unfold Elementwise.update
  refine .bind (.lift _) fun _ => ?_
  split
  · exact .bind Action.moves_activeContext fun context => h.forEach context _ (hupdateAt context)
  · exact .fail _

theorem assignBinary (h : Follows order) (op : BinaryOp) (destination source : Value) :
    Moves order (Elementwise.assignBinary op destination source : Action σ Unit) :=
  h.update (fun context _ _ => h.binary context op _ _) destination source

theorem assignBinaryReversed (h : Follows order) (op : BinaryOp) (destination source : Value) :
    Moves order (Elementwise.assignBinaryReversed op destination source : Action σ Unit) :=
  h.update (fun context _ _ => h.binary context op _ _) destination source

/-- An update of a scalar follows such an order, with storage behind the scalar
    or without. -/
theorem scalarAssign (h : Follows order) (op : BinaryOp) (a b : Scalar) : Moves order (a.assign op b : Action σ Scalar) := by
  unfold Scalar.assign
  split
  · exact .bind (h.assignBinary op _ _) fun _ => .pure _
  · exact .bind (.lift _) fun _ => .bind Action.moves_activeContext fun context =>
      .bind (h.binary context op _ _) fun _ => .lift _

theorem scalarStore (h : Follows order) (destination source : Scalar) :
    Moves order (destination.store source : Action σ Unit) :=
  .bind Action.moves_activeContext fun context => h.store context _ _

theorem scalarCombine (h : Follows order) (op : BinaryOp) (a b : Scalar) :
    Moves order (Scalar.combine op a b : Action σ Scalar) :=
  .bind Action.moves_activeContext fun context => .bind (h.binary context op _ _) fun _ => .lift _

theorem vectorElement (h : Follows order) (v : Vector) (index : Scalar) :
    Moves order (v.element index : Action σ Scalar) :=
  .bind Action.moves_activeContext fun context => .bind (h.element context _ _) fun _ => .lift _

theorem matrixElement (h : Follows order) (m : Matrix) (row column : Scalar) :
    Moves order (m.element row column : Action σ Scalar) :=
  .bind Action.moves_activeContext fun context => .bind (h.element context _ _) fun _ => .lift _

/-- A loop over the elements of a vector follows an order if its body does. -/
theorem forVector (h : Follows order) (value : Value) {body : Scalar → Action σ Unit}
    (hbody : ∀ index, Moves order (body index)) : Moves order (Action.forVector value body) := by
  unfold Action.forVector
  split
  · refine .bind Action.moves_activeContext fun context => .bind (.lift _) fun shape =>
      h.forEach context shape fun coordinates => ?_
    split
    · exact hbody _
    · exact .pure _
  · exact .fail _

/-- A loop over the rows and columns of a matrix follows an order if its body
    does. -/
theorem forMatrix (h : Follows order) (value : Value) {body : Scalar → Scalar → Action σ Unit}
    (hbody : ∀ row column, Moves order (body row column)) : Moves order (Action.forMatrix value body) := by
  unfold Action.forMatrix
  split
  · refine .bind (.lift _) fun shape => .bind Action.moves_activeContext fun context =>
      h.forEach context shape fun coordinates => ?_
    split
    · exact hbody _ _
    · exact .pure _
  · exact .fail _

theorem addInto (h : Follows order) (v : Vector) (total : Scalar) : Moves order (v.addInto total : Action σ Unit) :=
  h.forVector _ fun index => .bind (h.vectorElement v index) fun x => .map _ (h.scalarAssign .add total x)

end Context.Follows

namespace Context

variable {σ : Type}

/-- What is done to storage enters and leaves no context. The same holds of what
    is recorded. -/
theorem follows_stays : Context.Follows (@World.Stays σ) where
  element context _ _ := by cases context <;> exact fun _ => rfl
  load context _ := by cases context <;> exact fun _ => rfl
  store context _ _ := by cases context <;> exact fun _ => rfl
  binary context _ _ _ := by cases context <;> exact fun _ => rfl
  openLoops _ _ _ := rfl
  closeLoops _ _ _ _ := rfl

theorem stays_allocate (context : Context) (dtype : DType) (layout : Layout) :
    Moves World.Stays (context.allocate dtype layout : Action σ Value) := by
  cases context <;> exact fun _ => rfl

end Context

end StagedArrays
