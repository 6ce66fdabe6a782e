import StagedArrays.Proofs.Kernel.Dot
import StagedArrays.Proofs.Program.Basic

namespace StagedArrays

/-- The log of one world begins with that of another. -/
def World.Logs (world after : World AccessLog) : Prop := world.client <+: after.client

instance : IsPreorder (World AccessLog) World.Logs where
  refl world := List.prefix_refl world.client
  trans _ _ _ := List.IsPrefix.trans

namespace Action

variable {α β : Type}

/-- An action that only adds to the log. It does so also if it fails. -/
def Grows (action : Action AccessLog α) : Prop := Stateful.Moves World.Logs action

/-- An action that leaves the log alone only adds to it. This covers all that
    contexts do. -/
theorem Grows.of_client_eq {action : Action AccessLog α}
    (h : ∀ world, (action.runFrom world).2.client = world.client) : action.Grows := by
  intro world
  have hprefix : world.client <+: (action.runFrom world).2.client := (h world).symm ▸ List.prefix_refl world.client
  exact hprefix

theorem Grows.pure (value : α) : Grows (pure value) := Stateful.Moves.pure value

theorem Grows.throw (failure : Failure ValueError) : Grows (throw failure : Action AccessLog α) :=
  Stateful.Moves.throw failure

theorem Grows.fail (cause : ValueError) : Grows (Stateful.fail cause : Action AccessLog α) := .throw _

theorem Grows.bind {action : Action AccessLog α} {next : α → Action AccessLog β}
    (h : action.Grows) (hnext : ∀ value, (next value).Grows) : (action >>= next).Grows :=
  Stateful.Moves.bind h hnext

theorem Grows.map {action : Action AccessLog α} (f : α → β) (h : action.Grows) : (f <$> action).Grows :=
  Stateful.Moves.map f h

theorem Grows.lift {m : Type → Type} [MonadLiftT m (Except (Failure ValueError))] (x : m α) :
    Grows (liftM x) := Stateful.Moves.lift x

theorem Grows.settle (outcome : Except (Failure ValueError) α) : Grows (Stateful.settle outcome) :=
  Stateful.Moves.settle outcome

theorem Grows.attempt {action : Action AccessLog α} (h : action.Grows) : Grows (Stateful.attempt action) :=
  Stateful.Moves.attempt h

theorem Grows.forM {xs : List α} {body : α → Action AccessLog Unit} (h : ∀ x, (body x).Grows) :
    (xs.forM body).Grows := Stateful.Moves.forM h

theorem Grows.repeatFrom {body : Nat → Action AccessLog Unit} (h : ∀ index, (body index).Grows)
    (count first : Nat) : Grows (Stateful.repeatFrom body count first) :=
  Stateful.Moves.repeatFrom h count first

theorem Grows.onHeap (action : HeapM α) : Grows (onHeap action) := .of_client_eq fun _ => rfl

theorem Grows.onEmitter (id : EmitterId) (action : EmitterM α) : Grows (onEmitter id action) :=
  .of_client_eq fun _ => rfl

theorem Grows.activeContext : Grows activeContext := by
  intro world
  unfold Action.activeContext
  rw [Stateful.runFrom_bind, Stateful.runFrom_get]
  dsimp only
  split
  · exact List.prefix_refl _
  · exact List.prefix_refl _

theorem Grows.note (accesses : List Access) : (Program.note accesses).Grows :=
  fun world => List.prefix_append world.client accesses

/-- No operation of a context knows of the log. An allocation is one of them. -/
theorem Grows.allocate (context : Context) (dtype : DType) (layout : Layout) :
    (context.allocate dtype layout : Action AccessLog Value).Grows := by
  cases context with
  | compute => exact .onHeap _
  | emitter id => exact .onEmitter _ _

theorem Grows.element (context : Context) (value : Value) (coordinates : List Scalar) :
    (context.element value coordinates : Action AccessLog Value).Grows := by
  cases context with
  | compute => exact .onHeap _
  | emitter id => exact .onEmitter _ _

theorem Grows.load (context : Context) (value : Value) :
    (context.load value : Action AccessLog Value).Grows := by
  cases context with
  | compute => exact .onHeap _
  | emitter id => exact .onEmitter _ _

theorem Grows.store (context : Context) (destination source : Value) :
    (context.store destination source : Action AccessLog Unit).Grows := by
  cases context with
  | compute => exact .onHeap _
  | emitter id => exact .onEmitter _ _

theorem Grows.binary (context : Context) (op : BinaryOp) (a b : Value) :
    (context.binary op a b : Action AccessLog Value).Grows := by
  cases context with
  | compute => exact .onHeap _
  | emitter id => exact .onEmitter _ _

theorem Grows.call (context : Context) (function : FunctionDeclaration) (args : List Value) :
    (context.call function args : Action AccessLog (Option Value)).Grows := by
  cases context with
  | compute => exact .onHeap _
  | emitter id => exact .onEmitter _ _

/-- A loop adds what its body adds. The passes come one after the other. -/
theorem Grows.forEach (context : Context) {layout : Layout} {body : List Scalar → Action AccessLog Unit}
    (h : ∀ coordinates, (body coordinates).Grows) : (context.forEach layout body).Grows := by
  cases context with
  | compute =>
    rw [Context.forEach, Layout.forCoordinates_eq]
    exact .forM fun coordinates => h _
  | emitter id =>
    refine .bind (.onEmitter _ _) fun registers => .bind (.attempt (h _)) fun result => ?_
    split
    · exact .throw _
    · exact .bind (.onEmitter _ _) fun _ => .settle _

/-- A pass of an update only adds to the log if its way of combining does. -/
theorem Grows.updateAt (context : Context) {combine : Value → Value → Action AccessLog Value}
    (h : ∀ target other, (combine target other).Grows) (destination source : Value)
    (coordinates : List Scalar) :
    (Elementwise.updateAt context combine destination source coordinates).Grows := by
  refine .bind (.element _ _ _) fun target => .bind ?_ fun other => .bind (h _ _) fun _ => .store _ _ _
  unfold Elementwise.sourceElement
  split
  · exact .pure _
  · exact .element _ _ _

/-- An update of elements is a loop of such operations. It adds nothing of its
    own. -/
theorem Grows.assignBinary (op : BinaryOp) (destination source : Value) :
    (Elementwise.assignBinary op destination source : Action AccessLog Unit).Grows := by
  refine .bind (.lift _) fun _ => ?_
  split
  · exact .bind .activeContext fun context => .forEach _ (.updateAt _ (fun _ _ => .binary _ _ _ _) _ _)
  · exact .fail _

theorem Grows.combine (op : BinaryOp) (a b : Scalar) : (Scalar.combine op a b : Action AccessLog Scalar).Grows :=
  .bind .activeContext fun _ => .bind (.binary _ _ _ _) fun _ => .lift _

theorem Grows.assign (op : BinaryOp) (a b : Scalar) : (a.assign op b : Action AccessLog Scalar).Grows := by
  unfold Scalar.assign
  split
  · exact .bind (.assignBinary _ _ _) fun _ => .pure _
  · exact .bind (.lift _) fun _ => .bind .activeContext fun _ => .bind (.binary _ _ _ _) fun _ => .lift _

theorem Grows.vectorElement (v : Vector) (index : Scalar) : (v.element index : Action AccessLog Scalar).Grows :=
  .bind .activeContext fun _ => .bind (.element _ _ _) fun _ => .lift _

theorem Grows.zeroScalar (dtype : DType) : (Scalar.allocate dtype : Action AccessLog Scalar).Grows :=
  .bind .activeContext fun _ => .bind (.allocate _ _ _) fun _ => .bind (.lift _) fun _ =>
    .bind (.bind .activeContext fun _ => .store _ _ _) fun _ => .pure _

theorem Grows.forVector {value : Value} {body : Scalar → Action AccessLog Unit} (h : ∀ index, (body index).Grows) :
    (forVector value body).Grows := by
  unfold Action.forVector
  split
  · refine .bind .activeContext fun context => .bind (.lift _) fun _ => .forEach _ fun coordinates => ?_
    split
    · exact h _
    · exact .pure _
  · exact .fail _

/-- A call is no access that the log speaks of. A program notes what it reads
    before it calls. -/
theorem Grows.callIn (function : FunctionDeclaration) (context : Context) (args : List Value) :
    (function.callIn context args : Action AccessLog (Option Value)).Grows := by
  refine .bind (.lift _) fun _ => .bind (.call _ _ _) fun result => ?_
  split
  · exact .bind (.lift _) fun _ => .pure _
  · exact .fail _
  · exact .pure _

theorem Grows.dotByLoop (v w : Vector) : (v.dotByLoop w : Action AccessLog Scalar).Grows := by
  refine .bind (.lift _) fun _ => .bind (.lift _) fun _ => ?_
  split
  · exact .throw _
  · refine .bind (.zeroScalar _) fun total => .bind (.forVector fun index => ?_) fun _ => .pure _
    refine .bind (.vectorElement _ _) fun _ => .bind (.vectorElement _ _) fun _ => .bind (.combine _ _ _) fun _ => ?_
    exact .map _ (.assign _ _ _)

theorem Grows.dotByKernel (symbol : String) (kernel : HostFunction) (v w : Vector) :
    (v.dotByKernel symbol kernel w : Action AccessLog Scalar).Grows := by
  refine .bind (.lift _) fun _ => .bind (.lift _) fun _ => .bind (.lift _) fun _ => .bind (.lift _) fun _ =>
    .bind (.lift _) fun _ => .bind (.lift _) fun _ => .bind .activeContext fun _ => .bind (.callIn _ _ _) fun result => ?_
  split
  · exact .lift _
  · exact .fail _

/-- An inner product adds nothing, whichever way it is computed. What it reads
    is noted by the program. -/
theorem Grows.dot [ArrayLibrary] (v w : Vector) : (v.dot w : Action AccessLog Scalar).Grows := by
  rw [Vector.dot_eq]
  refine .bind (.lift _) fun _ => .bind (.lift _) fun _ => ?_
  split
  · exact .fail _
  · split
    · exact .fail _
    · unfold Vector.dotByType
      split
      · exact .dotByKernel _ _ _ _
      · exact .dotByKernel _ _ _ _
      all_goals exact .dotByLoop _ _

/-- An allocation by a program may add one note. It does so inside of loops. -/
theorem Grows.allocation (looping : Bool) (dtype : DType) (layout : Layout) :
    (Program.allocation looping dtype layout).Grows := by
  refine .bind .activeContext fun _ => .bind (.allocate _ _ _) fun _ => .bind ?_ fun _ => .pure _
  unfold Program.noteFresh
  split <;> exact .note _

theorem Grows.viewing (source : Value) (layout : Layout) : (Program.viewing source layout).Grows := .onHeap _

theorem Grows.selection (source : Value) (coordinates : List Value) :
    (Program.selection source coordinates).Grows :=
  .bind (.lift _) fun _ => .bind (.note _) fun _ => .bind .activeContext fun _ => .element _ _ _

theorem Grows.loading (source : Value) : (Program.loading source).Grows :=
  .bind (.note _) fun _ => .bind .activeContext fun _ => .load _ _

theorem Grows.storing (destination source : Value) : (Program.storing destination source).Grows :=
  .bind (.note _) fun _ => .bind .activeContext fun _ => .bind (.store _ _ _) fun _ => .note _

theorem Grows.combination (op : BinaryOp) (a b : Value) : (Program.combination op a b).Grows :=
  .bind (.note _) fun _ => .bind .activeContext fun _ => .binary _ _ _ _

theorem Grows.product [ArrayLibrary] (v w : Value) : (Program.product v w).Grows :=
  .bind (.lift _) fun _ => .bind (.lift _) fun _ => .bind (.note _) fun _ => .bind (.dot _ _) fun _ => .pure _

theorem Grows.readResult (result : Option Value) : (Program.readResult result).Grows := by
  cases result with
  | none => exact .pure _
  | some value => exact .bind (.lift _) fun _ => .bind (.note _) fun _ => .bind (.onHeap _) fun _ => .pure _

end Action

namespace Program

open StagedArrays.Action

/-- A run only adds to the log. The proof is by recursion on the program. -/
theorem grows_run [ArrayLibrary] {n : Nat} (program : Program n) (looping : Bool) (env : Env n) :
    (program.run looping env).Grows := by
  induction program generalizing looping with
  | done result => exact .pure _
  | allocate dtype shape next ih => exact .bind (.allocation _ _ _) fun _ => ih _ _
  | view source shape next ih => exact .bind (.viewing _ _) fun _ => ih _ _
  | element source coordinates next ih => exact .bind (.selection _ _) fun _ => ih _ _
  | load source next ih => exact .bind (.loading _) fun _ => ih _ _
  | store destination source next ih => exact .bind (.storing _ _) fun _ => ih _ _
  | binary op a b next ih => exact .bind (.combination _ _ _) fun _ => ih _ _
  | dot v w next ih => exact .bind (.product _ _) fun _ => ih _ _
  | forEach shape body next ihBody ihNext =>
    exact .bind .activeContext fun _ => .bind (.forEach _ fun _ => .map _ (ihBody _ _)) fun _ => ihNext _ _

end Program

end StagedArrays
