import StagedArrays.Proofs.Storage.Building

namespace StagedArrays

open Stateful (Hands Moves)

/-- What can be asked of the library with the values it has handed out, and what
    is then handed out. Layouts have an increment for each dimension, as every
    way to make one sees to; data refer to buffers that are there; and a host
    function keeps the types and lengths of buffers. Whoever loops asks for the
    coordinates that the loop gives them: immediates, or registers. -/
inductive Offers [ArrayLibrary] {σ : Type} (heap : Heap) (values : List Value) : Action σ (List Value) → Prop
  | make {dtype : DType} {layout : Layout} {data : ValueData} (hformed : layout.Formed)
      (hdata : ∀ ref offset, data = .host ref offset → ref.index < heap.buffers.size) :
      Offers heap values ((fun v => [v]) <$> .onHeap (do liftM (Value.make (← get) dtype layout data)))
  | constant (x : Numeric) : Offers heap values (pure [.constant x])
  | host (buffer : HostBuffer) {layout : Layout} (hformed : layout.Formed) :
      Offers heap values ((fun v => [v]) <$> .onHeap (HeapM.host buffer layout))
  | vector (buffer : HostBuffer) : Offers heap values ((fun v => [v]) <$> .onHeap (HeapM.vector buffer))
  | withLayout {value : Value} {layout : Layout} (hvalue : value ∈ values) (hformed : layout.Formed) :
      Offers heap values ((fun v => [v]) <$> .onHeap (do liftM (value.withLayout (← get) layout)))
  | parameters (id : EmitterId) {function : FunctionDeclaration}
      (hformed : ∀ type ∈ function.parameters, type.layout.Formed) :
      Offers heap values (.onEmitter id (Emitter.startFunction function))
  | registers (id : EmitterId) (extents : List Nat) :
      Offers heap values ((fun ids => ids.map (Value.register .i64)) <$> .onEmitter id (Emit.openLoops extents))
  | allocate (context : Context) (dtype : DType) {layout : Layout} (hformed : layout.Formed) :
      Offers heap values ((fun v => [v]) <$> context.allocate dtype layout)
  | element (context : Context) {value : Value} (hvalue : value ∈ values) (coordinates : List Scalar) :
      Offers heap values ((fun v => [v]) <$> context.element value coordinates)
  | load (context : Context) (value : Value) : Offers heap values ((fun v => [v]) <$> context.load value)
  | store (context : Context) (destination source : Value) :
      Offers heap values ((fun _ => []) <$> context.store destination source)
  | binary (context : Context) (op : BinaryOp) (a b : Value) :
      Offers heap values ((fun v => [v]) <$> context.binary op a b)
  | call {function : FunctionDeclaration} (hfunction : ∀ definition, function.hostDefinition = some definition →
        ∀ args, Moves Heap.Advances (definition args)) (args : List Value) :
      Offers heap values (Option.toList <$> function.call args)
  | contextCall (context : Context) {function : FunctionDeclaration}
      (hfunction : ∀ definition, function.hostDefinition = some definition →
        ∀ args, Moves Heap.Advances (definition args)) (args : List Value) :
      Offers heap values (Option.toList <$> context.call function args)
  | copy (value : Value) : Offers heap values ((fun v => [v]) <$> Elementwise.copy value)
  | copyInto (destination source : Value) :
      Offers heap values ((fun _ => []) <$> Elementwise.copyInto destination source)
  | assignBinary (op : BinaryOp) (destination source : Value) :
      Offers heap values ((fun _ => []) <$> Elementwise.assignBinary op destination source)
  | assignBinaryReversed (op : BinaryOp) (destination source : Value) :
      Offers heap values ((fun _ => []) <$> Elementwise.assignBinaryReversed op destination source)
  | scalarAllocate (dtype : DType) : Offers heap values ((fun s => [s.value]) <$> Scalar.allocate dtype)
  | scalarStore (destination source : Scalar) : Offers heap values ((fun _ => []) <$> destination.store source)
  | scalarCopy (s : Scalar) : Offers heap values ((fun s => [s.value]) <$> s.copy)
  | scalarCombine (op : BinaryOp) (a b : Scalar) : Offers heap values ((fun s => [s.value]) <$> Scalar.combine op a b)
  | scalarAssign (op : BinaryOp) {a : Scalar} (ha : a.value ∈ values) (b : Scalar) :
      Offers heap values ((fun s => [s.value]) <$> a.assign op b)
  | scalarBinary (op : BinaryOp) (a b : Scalar) : Offers heap values ((fun s => [s.value]) <$> a.binary op b)
  | vectorOfBuffer (buffer : HostBuffer) :
      Offers heap values ((fun v => [v.value]) <$> .onHeap (Vector.ofBuffer buffer))
  | vectorAllocate (dtype : DType) (size : Nat) :
      Offers heap values ((fun v => [v.value]) <$> Vector.allocate dtype size)
  | vectorElement {v : Vector} (hv : v.value ∈ values) (index : Scalar) :
      Offers heap values ((fun s => [s.value]) <$> v.element index)
  | vectorCopy (v : Vector) : Offers heap values ((fun v => [v.value]) <$> v.copy)
  | vectorAssign (op : BinaryOp) (v : Vector) (operand : Value) :
      Offers heap values ((fun _ => []) <$> v.assign op operand)
  | vectorBinary (op : BinaryOp) (v : Vector) (operand : Value) :
      Offers heap values ((fun v => [v.value]) <$> v.binary op operand)
  | vectorScalarFirst (op : BinaryOp) (s : Scalar) (v : Vector) :
      Offers heap values ((fun v => [v.value]) <$> Vector.scalarFirst op s v)
  | accumulate (v : Vector) (initial : Scalar) : Offers heap values ((fun s => [s.value]) <$> v.accumulate initial)
  | vectorSum (v : Vector) : Offers heap values ((fun s => [s.value]) <$> v.sum)
  | dot (v w : Vector) : Offers heap values ((fun s => [s.value]) <$> v.dot w)
  | dotByLoop (v w : Vector) : Offers heap values ((fun s => [s.value]) <$> v.dotByLoop w)
  | matrixOfBuffer (rows columns : Nat) (buffer : HostBuffer) :
      Offers heap values ((fun m => [m.value]) <$> .onHeap (Matrix.ofBuffer rows columns buffer))
  | matrixAllocate (dtype : DType) (rows columns : Nat) :
      Offers heap values ((fun m => [m.value]) <$> Matrix.allocate dtype rows columns)
  | matrixElement {m : Matrix} (hm : m.value ∈ values) (row column : Scalar) :
      Offers heap values ((fun s => [s.value]) <$> m.element row column)
  | matrixRow {m : Matrix} (hm : m.value ∈ values) (row : Nat) :
      Offers heap values ((fun v => [v.value]) <$> .onHeap (m.row row))
  | matrixCopy (m : Matrix) : Offers heap values ((fun m => [m.value]) <$> m.copy)
  | matrixAssign (op : BinaryOp) (m : Matrix) (operand : Value) :
      Offers heap values ((fun _ => []) <$> m.assign op operand)
  | matrixBinary (op : BinaryOp) (m : Matrix) (operand : Value) :
      Offers heap values ((fun m => [m.value]) <$> m.binary op operand)
  | matrixSum (m : Matrix) : Offers heap values ((fun s => [s.value]) <$> m.sum)

/-- Values that lie within their storage. -/
abbrev FitsAll (heap : Heap) (values : List Value) : Prop := ∀ v ∈ values, v.Fits heap

namespace Offers

variable {σ α : Type} {world : World σ} {values : List Value} {action : Action σ (List Value)}

/-- An action that hands out one thing offers one value. It fits if the thing
    does. -/
theorem hands_one {action : Action σ α} {valueOf : α → Value}
    (h : Hands World.heap action world fun heap a => (valueOf a).Fits heap) :
    Hands World.heap ((fun a => [valueOf a]) <$> action) world FitsAll :=
  h.map fun _ _ hfits _ hv => List.mem_singleton.mp hv ▸ hfits

/-- An action that hands out nothing offers no value. It may change the heap. -/
theorem hands_none {action : Action σ α} (h : Moves World.Advances action) :
    Hands World.heap ((fun _ => ([] : List Value)) <$> action) world FitsAll := by
  have hquiet : Hands World.heap action world fun _ _ => True := ⟨(h world).heap, fun _ _ => trivial⟩
  exact hquiet.map fun _ _ _ => nofun

/-- What is handed out lies within its storage, if what was handed out before
    does. -/
theorem hands [ArrayLibrary] (h : Offers world.heap values action) (hvalues : FitsAll world.heap values) :
    Hands World.heap action world FitsAll := by
  have hfollows := @Context.follows_advances σ
  cases h with
  | make hformed hdata => exact hands_one (Action.hands_onHeap (HeapM.hands_make hformed hdata))
  | constant x =>
    refine .pure fun v hv => ?_
    obtain rfl := List.mem_singleton.mp hv
    exact Value.fits_constant _ x
  | host buffer hformed => exact hands_one (Action.hands_onHeap (HeapM.hands_host buffer hformed))
  | vector buffer => exact hands_one (Action.hands_onHeap (HeapM.hands_vector buffer))
  | withLayout hvalue hformed =>
    exact hands_one (Action.hands_onHeap (HeapM.hands_make hformed (hvalues _ hvalue).known))
  | parameters id hformed => exact Action.hands_onEmitter id (Emitter.returns_startFunction hformed)
  | registers id extents =>
    have hquiet : Hands World.heap (Action.onEmitter id (Emit.openLoops extents) : Action σ (List RegisterId)) world
      fun _ _ => True := ⟨.refl _, fun _ _ => trivial⟩
    refine hquiet.map fun heap ids _ v hv => ?_
    obtain ⟨register, -, rfl⟩ := List.mem_map.mp hv
    exact Value.fits_register heap _ register
  | allocate context dtype hformed => exact hands_one (context.hands_allocate dtype hformed)
  | element context hvalue coordinates => exact hands_one (context.hands_element (hvalues _ hvalue) coordinates)
  | load context value => exact hands_one (context.hands_load value)
  | store context destination source => exact hands_none (hfollows.store context destination source)
  | binary context op a b => exact hands_one (context.hands_binary op a b)
  | call hfunction args =>
    exact (FunctionDeclaration.hands_call hfunction args).map fun heap result hresult v hv =>
      hresult v (Option.mem_toList.mp hv)
  | contextCall context hfunction args =>
    exact (context.hands_call hfunction args).map fun heap result hresult v hv => hresult v (Option.mem_toList.mp hv)
  | copy value => exact hands_one (Elementwise.hands_copy value)
  | copyInto destination source => exact hands_none (hfollows.copyInto destination source)
  | assignBinary op destination source => exact hands_none (hfollows.assignBinary op destination source)
  | assignBinaryReversed op destination source => exact hands_none (hfollows.assignBinaryReversed op destination source)
  | scalarAllocate dtype => exact hands_one (Scalar.hands_allocate dtype)
  | scalarStore destination source => exact hands_none (hfollows.scalarStore destination source)
  | scalarCopy s => exact hands_one (Scalar.hands_copy s)
  | scalarCombine op a b => exact hands_one (Scalar.hands_combine op a b)
  | scalarAssign op ha b => exact hands_one (Scalar.hands_assign (hvalues _ ha) op b)
  | scalarBinary op a b => exact hands_one (Scalar.hands_binary op a b)
  | vectorOfBuffer buffer => exact hands_one (Vector.hands_ofBuffer buffer)
  | vectorAllocate dtype size => exact hands_one (Vector.hands_allocate dtype size)
  | vectorElement hv index => exact hands_one (Vector.hands_element (hvalues _ hv) index)
  | vectorCopy v => exact hands_one (Vector.hands_copy v)
  | vectorAssign op v operand => exact hands_none (hfollows.assignBinary op v.value operand)
  | vectorBinary op v operand => exact hands_one (Vector.hands_binary op v operand)
  | vectorScalarFirst op s v => exact hands_one (Vector.hands_scalarFirst op s v)
  | accumulate v initial => exact hands_one (Vector.hands_accumulate v initial)
  | vectorSum v => exact hands_one (Vector.hands_sum v)
  | dot v w => exact hands_one (Vector.hands_dot v w)
  | dotByLoop v w => exact hands_one (Vector.hands_dotByLoop v w)
  | matrixOfBuffer rows columns buffer => exact hands_one (Matrix.hands_ofBuffer rows columns buffer)
  | matrixAllocate dtype rows columns => exact hands_one (Matrix.hands_allocate dtype rows columns)
  | matrixElement hm row column => exact hands_one (Matrix.hands_element (hvalues _ hm) row column)
  | matrixRow hm row => exact hands_one (Matrix.hands_row (hvalues _ hm) row)
  | matrixCopy m => exact hands_one (Matrix.hands_copy m)
  | matrixAssign op m operand => exact hands_none (hfollows.assignBinary op m.value operand)
  | matrixBinary op m operand => exact hands_one (Matrix.hands_binary op m operand)
  | matrixSum m => exact hands_one (Matrix.hands_sum m)

end Offers

end StagedArrays
