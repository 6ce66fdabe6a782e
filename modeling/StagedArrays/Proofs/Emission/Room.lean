import StagedArrays.Proofs.Emission.Simulation

namespace StagedArrays

namespace Program

/-- No storage that a program asks for has more bytes than an allocation can
    have. Where the program is executed directly this is found out at each
    allocation that is reached; of those in a loop without passes nothing is
    known. -/
def HasRoom : {n : Nat} → Program n → Prop
  | _, done _ => True
  | _, allocate dtype shape next =>
    (do dtype.reserve (← shape.toLayout.memorySize) : Except Fault Unit) = .ok () ∧ next.HasRoom
  | _, view _ _ next => next.HasRoom
  | _, element _ _ next => next.HasRoom
  | _, load _ next => next.HasRoom
  | _, store _ _ next => next.HasRoom
  | _, binary _ _ _ next => next.HasRoom
  | _, dot _ _ next => next.HasRoom
  | _, forEach _ body next => body.HasRoom ∧ next.HasRoom

end Program

namespace Fragment

/-- A piece that calls nothing and declares no storage. -/
structure Bare (f : Fragment) : Prop where
  symbols_eq : blockSymbols f.code = []
  buffers_eq : f.buffers = []

/-- There is room for each buffer that a piece declares. A call asks for all of
    them before its body begins. -/
def HasRoom (f : Fragment) : Prop :=
  ∀ declaration ∈ f.buffers, declaration.dtype.reserve declaration.length = .ok ()

/-- A property that pieces have which neither call nor declare anything, and
    that is kept where pieces are put one after the other or into a loop. -/
structure Closed (P : Fragment → Prop) : Prop where
  bare : ∀ {f : Fragment}, f.Bare → P f
  append : ∀ {f g : Fragment}, P f → P g → P (f.append g)
  nest : ∀ {f : Fragment} (first : Nat) (extents : List Nat), P f → P (f.nest first extents)

theorem Bare.empty : empty.Bare := ⟨rfl, rfl⟩

/-- Code without allocations and calls is closed under the ways in which pieces
    are put together. -/
theorem closed_bare : Closed Bare where
  bare h := h
  append hf hg := ⟨by rw [append, blockSymbols_append, hf.symbols_eq, hg.symbols_eq]; rfl,
    by rw [append, hf.buffers_eq, hg.buffers_eq]; rfl⟩
  nest _ _ h := ⟨by rw [blockSymbols_nest, h.symbols_eq], by rw [buffers_nest, h.buffers_eq]⟩

theorem hasRoom_append {f g : Fragment} : (f.append g).HasRoom ↔ f.HasRoom ∧ g.HasRoom := by
  simp only [HasRoom, append, List.forall_mem_append]

/-- Loops around a piece of code need no more room. A loop declares no
    storage. -/
theorem hasRoom_nest {f : Fragment} (first : Nat) (extents : List Nat) :
    (f.nest first extents).HasRoom ↔ f.HasRoom := by
  rw [HasRoom, buffers_nest]
  rfl

theorem Bare.hasRoom {f : Fragment} (h : f.Bare) : f.HasRoom := by
  rw [HasRoom, h.buffers_eq]
  nofun

/-- To have room is kept up where pieces are put together. A piece without
    allocations has it. -/
theorem closed_hasRoom : Closed HasRoom where
  bare h := h.hasRoom
  append hf hg := hasRoom_append.mpr ⟨hf, hg⟩
  nest first extents h := (hasRoom_nest first extents).mpr h

end Fragment

namespace Comparison

variable [ArrayLibrary] {c : Comparison} {α β : Type}

/-- Whatever an operation of the emitter records calls nothing and declares no
    storage. -/
def Hushes (c : Comparison) (action : EmitterM α) : Prop := ∀ builder, c.Emits builder action fun _ f => f.Bare

namespace Hushes

theorem pure (value : α) : c.Hushes (pure value) := fun _ => .pure .empty

theorem fail (cause : ValueError) : c.Hushes (Stateful.fail cause : EmitterM α) := fun _ => .fail

/-- Two operations that declare nothing declare nothing together. The second may
    depend on the first. -/
theorem bind {action : EmitterM α} {next : α → EmitterM β} (h : c.Hushes action) (hnext : ∀ value, c.Hushes (next value)) :
    c.Hushes (action >>= next) := fun builder =>
  .bind (h builder) fun value f hf =>
    (hnext value (builder.extend f)).mono fun _ _ hg => Fragment.closed_bare.append hf hg

theorem lift_bind {m : Type → Type} [MonadLiftT m (Except (Failure ValueError))] {x : m α} {next : α → EmitterM β}
    (hnext : ∀ value, c.Hushes (next value)) : c.Hushes (liftM x >>= next) := fun builder =>
  .lift_bind fun value _ => hnext value builder

theorem emitWithOutput {instruction : RegisterId → Instruction} (h : ∀ output, (instruction output).symbols = []) :
    c.Hushes (Emitter.emitWithOutput instruction) := fun builder =>
  .emitWithOutput (by simp [h]) ⟨by simp [blockSymbols, h], rfl⟩

end Hushes

theorem hushes_binaryOperand (op : BinaryOp) (a b : Operand) : c.Hushes (Emitter.binaryOperand op a b) := by
  unfold Emitter.binaryOperand
  split
  · exact .lift_bind fun _ => .pure _
  · exact .bind (.emitWithOutput fun _ => rfl) fun _ => .pure _

/-- To load an operand declares no storage. It records a single instruction at
    most. -/
theorem hushes_operand (value : Value) : c.Hushes (Emit.operand value) := by
  refine .lift_bind fun _ => ?_
  split
  · exact .pure _
  · exact .pure _
  · exact .bind (.emitWithOutput fun _ => rfl) fun _ => .pure _
  · exact .fail _

theorem hushes_indexOperand (coordinate : Scalar) (extent : Nat) : c.Hushes (Emit.indexOperand coordinate extent) := by
  unfold Emit.indexOperand
  split
  · refine .lift_bind fun _ => ?_
    split
    · exact .fail _
    · exact .pure _
  · exact .lift_bind fun _ => hushes_operand _

theorem hushes_offsetOperand (offset : Operand) (extents increments : List Nat) (coordinates : List Scalar) :
    c.Hushes (Emit.offsetOperand offset extents increments coordinates) := by
  induction offset, extents, increments, coordinates using Emit.offsetOperand.induct with
  | case1 offset extent extents increment increments coordinate coordinates ih =>
    exact .bind (hushes_indexOperand _ _) fun _ => .bind (hushes_binaryOperand _ _ _) fun _ =>
      .bind (hushes_binaryOperand _ _ _) fun _ => ih _
  | case2 extents increments offset coordinates hshort =>
    unfold Emit.offsetOperand
    split
    · exact (hshort _ _ _ _ _ _ rfl rfl rfl).elim
    · exact .pure _

/-- To record the place of an element declares none either. Its coordinates are
    loaded and combined. -/
theorem hushes_element (value : Value) (coordinates : List Scalar) : c.Hushes (Emit.element value coordinates) := by
  refine .lift_bind fun _ => ?_
  split
  · exact .bind (hushes_offsetOperand _ _ _ _) fun _ => .pure _
  · exact .pure _
  · exact .pure _
  · exact .fail _

theorem hushes_load (value : Value) : c.Hushes (Emit.load value) :=
  .bind (hushes_operand value) fun _ => .pure _

/-- Nor does a store. Storage is declared by allocations alone. -/
theorem hushes_store (destination source : Value) : c.Hushes (Emit.store destination source) := by
  refine .lift_bind fun _ => .lift_bind fun _ => ?_
  split
  · exact .bind (hushes_operand _) fun _ _ => .emit (by simp [Instruction.symbols]) ⟨rfl, rfl⟩
  · exact .fail _
  · exact .fail _
  · exact .fail _

theorem hushes_binary (op : BinaryOp) (a b : Value) : c.Hushes (Emit.binary op a b) :=
  .lift_bind fun _ => .bind (hushes_operand _) fun _ => .bind (hushes_operand _) fun _ =>
    .bind (hushes_binaryOperand _ _ _) fun _ => .pure _

theorem hushes_resultOperand (function : FunctionDeclaration) (result : Option Value) :
    c.Hushes (Emitter.resultOperand function result) := by
  unfold Emitter.resultOperand
  split
  · exact .lift_bind fun _ => .bind (hushes_operand _) fun _ => .pure _
  · exact .pure _
  · exact .fail _
  · exact .fail _

/-- Whatever an operation records has a property. -/
def Leaves (c : Comparison) (P : Fragment → Prop) (action : Action AccessLog α) : Prop :=
  ∀ builder, c.Records builder action fun _ f => P f

section Leaves

variable {P : Fragment → Prop} (hP : Fragment.Closed P)
include hP

theorem Leaves.pure (value : α) : c.Leaves P (pure value) := fun _ => .pure (hP.bare .empty)

theorem Leaves.bind {action : Action AccessLog α} {next : α → Action AccessLog β} (h : c.Leaves P action)
    (hnext : ∀ value, c.Leaves P (next value)) : c.Leaves P (action >>= next) := fun builder =>
  .bind (h builder) fun value f hf => (hnext value (builder.extend f)).mono fun _ _ hg => hP.append hf hg

theorem Leaves.map {action : Action AccessLog α} (f : α → β) (h : c.Leaves P action) : c.Leaves P (f <$> action) := by
  rw [← bind_pure_comp]
  exact .bind hP h fun _ => .pure hP _

theorem Leaves.lift {m : Type → Type} [MonadLiftT m (Except (Failure ValueError))] (x : m α) :
    c.Leaves P (liftM x : Action AccessLog α) := fun _ => .lift fun _ _ => hP.bare .empty

theorem Leaves.onEmitter {action : EmitterM α} (h : c.Hushes action) : c.Leaves P (.onEmitter c.id action) :=
  fun builder => ((h builder).mono fun _ _ => hP.bare).records

theorem Leaves.forEach {layout : Layout} {body : List Scalar → Action AccessLog Unit}
    (h : ∀ coordinates, c.Leaves P (body coordinates)) : c.Leaves P ((Context.emitter c.id).forEach layout body) :=
  fun _ => .forEach ((h _ _).mono fun _ _ hf => hP.nest _ _ hf)

omit hP in
theorem Leaves.lift_bind {m : Type → Type} [MonadLiftT m (Except (Failure ValueError))] {x : m α}
    {next : α → Action AccessLog β} (h : ∀ value, c.Leaves P (next value)) : c.Leaves P (liftM x >>= next) :=
  fun builder => .lift_bind fun value _ => h value builder

omit hP in
theorem Leaves.note_bind (accesses : List Access) {next : Unit → Action AccessLog α} (h : c.Leaves P (next ())) :
    c.Leaves P (Program.note accesses >>= next) := fun builder => .note_bind _ (h builder)

omit hP in
theorem Leaves.activeContext_bind {next : Context → Action AccessLog α} (h : c.Leaves P (next (.emitter c.id))) :
    c.Leaves P (Action.activeContext >>= next) := fun builder => .activeContext_bind (h builder)

theorem leaves_viewing (source : Value) (layout : Layout) : c.Leaves P (Program.viewing source layout) := by
  intro builder log value world hrun
  obtain ⟨-, rfl⟩ := Prod.mk.inj hrun
  exact ⟨.empty, log, by rw [FunctionBuilder.extend_empty]; rfl, placed_empty _, hP.bare .empty⟩

theorem leaves_selection (source : Value) (coordinates : List Value) :
    c.Leaves P (Program.selection source coordinates) :=
  .lift_bind fun _ => .note_bind _ (.activeContext_bind (.onEmitter hP (hushes_element _ _)))

theorem leaves_loading (source : Value) : c.Leaves P (Program.loading source) :=
  .note_bind _ (.activeContext_bind (.onEmitter hP (hushes_load _)))

theorem leaves_storing (destination source : Value) : c.Leaves P (Program.storing destination source) := by
  refine .note_bind _ (.activeContext_bind (.bind hP (.onEmitter hP (hushes_store _ _)) fun _ => ?_))
  rw [← bind_pure (Program.noteStore _)]
  exact .note_bind _ (.pure hP _)

theorem leaves_combination (op : BinaryOp) (a b : Value) : c.Leaves P (Program.combination op a b) :=
  .note_bind _ (.activeContext_bind (.onEmitter hP (hushes_binary _ _ _)))

/-- An update of one scalar by another neither calls nor declares anything. -/
theorem leaves_assign (op : BinaryOp) (a b : Scalar) : c.Leaves P (a.assign op b) := by
  unfold Scalar.assign
  by_cases haddressable : a.value.isAddressable = true
  · rw [if_pos haddressable]
    refine .bind hP (.lift_bind fun _ => ?_) fun _ => .pure hP _
    rw [if_pos haddressable]
    refine .activeContext_bind (.forEach hP fun coordinates => ?_)
    refine .bind hP (.onEmitter hP (hushes_element _ _)) fun target => ?_
    refine .bind hP ?_ fun other => .bind hP (.onEmitter hP (hushes_binary _ _ _)) fun _ =>
      .onEmitter hP (hushes_store _ _)
    unfold Elementwise.sourceElement
    split
    · exact .pure hP _
    · exact .onEmitter hP (hushes_element _ _)
  · rw [if_neg haddressable]
    exact .lift_bind fun _ => .activeContext_bind (.bind hP (.onEmitter hP (hushes_binary _ _ _)) fun _ => .lift hP _)

/-- What the body of a loop leaves is in the recorded code once, in the body of
    the recorded loop. -/
theorem leaves_forVector (value : Value) {body : Scalar → Action AccessLog Unit} (h : ∀ index, c.Leaves P (body index)) :
    c.Leaves P (Action.forVector value body) := by
  unfold Action.forVector
  split
  · refine .activeContext_bind (.lift_bind fun _ => .forEach hP fun coordinates => ?_)
    split
    · exact h _
    · exact .pure hP _
  · exact fun _ => .fail

end Leaves

/-- There is room for a scalar. -/
theorem leaves_zeroScalar (dtype : DType) : c.Leaves Fragment.HasRoom (Scalar.allocate dtype) := by
  have hclosed := Fragment.closed_hasRoom
  refine .activeContext_bind (.bind hclosed (fun builder => ?_) fun _ => .lift_bind fun _ =>
    .bind hclosed (.activeContext_bind (.onEmitter hclosed (hushes_store _ _))) fun _ => .pure hclosed _)
  refine (emits_allocate dtype .scalar).records.mono ?_
  rintro _ f ⟨size, hsize, -, -, rfl⟩
  cases hsize
  exact List.forall_mem_singleton.mpr dtype.reserve_one

/-- There is room for the sum of an inner product. -/
theorem leaves_dotByLoop (v w : Vector) : c.Leaves Fragment.HasRoom (v.dotByLoop w) := by
  have hclosed := Fragment.closed_hasRoom
  have helement (v : Vector) (index : Scalar) : c.Leaves Fragment.HasRoom (v.element index) :=
    .activeContext_bind (.bind hclosed (.onEmitter hclosed (hushes_element _ _)) fun _ => .lift hclosed _)
  rw [Vector.dotByLoop_eq]
  refine .lift_bind fun _ => .lift_bind fun _ => ?_
  split
  · exact fun _ => .fail
  · refine .bind hclosed (leaves_zeroScalar _) fun total => .bind hclosed (leaves_forVector hclosed _ fun index => ?_)
      fun _ => .pure hclosed _
    refine .bind hclosed (helement v index) fun x => .bind hclosed (helement w index) fun y => ?_
    refine .bind hclosed (.activeContext_bind (.bind hclosed (.onEmitter hclosed (hushes_binary _ _ _)) fun _ =>
      .lift hclosed _)) fun _ => .map hclosed _ (leaves_assign hclosed _ _ _)

/-- A kernel is called with what is there. It needs no storage of the
    function. -/
theorem leaves_dotByKernel {symbol : String} (hsymbol : symbol ∈ Kernel.symbols) (kernel : HostFunction) (v w : Vector) :
    c.Leaves Fragment.HasRoom (v.dotByKernel symbol kernel w) := by
  have hclosed := Fragment.closed_hasRoom
  refine .lift_bind fun _ => .lift_bind fun _ => .lift_bind fun _ => .lift_bind fun _ => .lift_bind fun _ =>
    .lift_bind fun _ => .activeContext_bind (.bind hclosed (fun builder => ?_) fun result => ?_)
  · refine (records_callKernel hsymbol kernel v w _).mono ?_
    rintro _ f ⟨-, -, args, rfl, -⟩
    exact nofun
  · split
    · exact .lift hclosed _
    · exact fun _ => .fail

/-- The code of an inner product leaves room for the storage of its result,
    whether it calls a kernel or loops. -/
theorem leaves_product (v w : Value) : c.Leaves Fragment.HasRoom (Program.product v w) := by
  have hclosed := Fragment.closed_hasRoom
  refine .lift_bind fun left => .lift_bind fun right => .note_bind _ (.bind hclosed ?_ fun _ => .pure hclosed _)
  rw [Vector.dot_eq]
  refine .lift_bind fun _ => .lift_bind fun _ => ?_
  split
  · exact fun _ => .fail
  split
  · exact fun _ => .fail
  unfold Vector.dotByType
  cases left.dtype with
  | f32 | f64 => exact leaves_dotByKernel (by simp [Kernel.symbols]) _ _ _
  | bf16 | f16 | i64 | i32 => exact leaves_dotByLoop _ _

variable {builder : FunctionBuilder} {p : Prop}

/-- What an operation adds that has room makes no difference to the room that
    what follows needs. -/
theorem records_room_bind {action : Action AccessLog α} {next : α → Action AccessLog β}
    (h : c.Leaves Fragment.HasRoom action)
    (hnext : ∀ value builder, c.Records builder (next value) fun _ g => g.HasRoom ↔ p) :
    c.Records builder (action >>= next) fun _ f => f.HasRoom ↔ p :=
  .bind (h builder) fun value _ hf => (hnext value _).mono fun _ _ hg =>
    Fragment.hasRoom_append.trans ((and_iff_right hf).trans hg)

/-- The storage that is taken is declared by what is recorded, buffer by
    buffer. -/
theorem records_room {n : Nat} (program : Program n) (looping : Bool) (env : Env n) :
    c.Records builder (program.run looping env) fun _ f => f.HasRoom ↔ program.HasRoom := by
  have hclosed := Fragment.closed_hasRoom
  induction program generalizing builder looping with
  | done => exact .pure (iff_of_true Fragment.Bare.empty.hasRoom trivial)
  | allocate dtype shape next ih =>
    refine .bind ?_ fun value f (hf : f.HasRoom ↔ _) => (ih _ _).mono fun _ _ hg =>
      Fragment.hasRoom_append.trans (and_congr hf hg)
    refine .activeContext_bind (.bind (emits_allocate dtype shape.toLayout).records ?_)
    rintro _ _ ⟨size, hsize, -, rfl, rfl⟩
    have hroom : ({ buffers := [⟨⟨builder.buffers.size⟩, dtype, size, .own⟩] } : Fragment).HasRoom ↔
        (do dtype.reserve (← shape.toLayout.memorySize) : Except Fault Unit) = .ok () := by
      rw [hsize, ok_bind]
      exact List.forall_mem_singleton
    have hnote : Program.noteFresh looping (.emittedBuffer dtype shape.toLayout ⟨builder.buffers.size⟩) =
        Program.note [] := by cases looping <;> rfl
    rw [hnote]
    refine .note_bind _ (.pure ?_)
    rwa [Fragment.append_empty]
  | view source shape next ih => exact records_room_bind (leaves_viewing hclosed _ _) fun _ _ => ih _ _
  | element source coordinates next ih => exact records_room_bind (leaves_selection hclosed _ _) fun _ _ => ih _ _
  | load source next ih => exact records_room_bind (leaves_loading hclosed _) fun _ _ => ih _ _
  | store destination source next ih => exact records_room_bind (leaves_storing hclosed _ _) fun _ _ => ih _ _
  | binary op a b next ih => exact records_room_bind (leaves_combination hclosed _ _ _) fun _ _ => ih _ _
  | dot v w next ih => exact records_room_bind (leaves_product _ _) fun _ _ => ih _ _
  | forEach shape body next ihBody ihNext =>
    have hbody (inner : FunctionBuilder) (env : Env _) :
        c.Records inner (discard (body.run true env)) fun _ f => f.HasRoom ↔ body.HasRoom := by
      rw [Functor.discard, map_const, Function.comp_apply, ← bind_pure_comp]
      exact .map (ihBody _ _)
    refine .activeContext_bind (@Records.bind _ _ _ _ _ _ _ (fun _ f => f.HasRoom ↔ body.HasRoom) _
      (.forEach ((hbody _ _).mono fun _ f hf => (Fragment.hasRoom_nest _ _).trans hf)) fun _ f hf => ?_)
    exact (ihNext _ _).mono fun _ g hg => Fragment.hasRoom_append.trans (and_congr hf hg)

/-- Nor does the result that is handed back need any room. -/
theorem records_room_body {n : Nat} (program : Program n) (function : FunctionDeclaration) (values : List Value) :
    c.Records builder (do
      let result ← program.body values
      .onEmitter c.id (Emitter.resultOperand function result)) fun _ f => f.HasRoom ↔ program.HasRoom := by
  refine .bind (records_room program false _) fun result f hf => ?_
  refine (Leaves.onEmitter Fragment.closed_hasRoom (hushes_resultOperand function result) _).mono fun _ g hg => ?_
  exact Fragment.hasRoom_append.trans ((and_iff_left hg).trans hf)

end Comparison

end StagedArrays
