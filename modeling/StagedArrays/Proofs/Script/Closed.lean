import StagedArrays.Proofs.Script.Recording
import StagedArrays.Proofs.Script.Scope

namespace StagedArrays

/-- Whether a call hands over only assigned registers and declared buffers. The
    place in a buffer may be given by a register too. -/
def CallArgument.Closed (declared : List BufferId) (assigned : List RegisterId) : CallArgument → Prop
  | .scalar operand => operand.registers ⊆ assigned
  | .buffer id offset => id ∈ declared ∧ offset.registers ⊆ assigned

/-- The registers that are assigned once an instruction has been executed. A
    loop may have executed its body not even once. -/
def Instruction.assigns : Instruction → List RegisterId
  | .binary output .. => [output]
  | .load output .. => [output]
  | .store .. => []
  | .loop .. => []
  | .call _ _ output => output.toList

/-- The buffer that a call hands over a place in. -/
def CallArgument.buffer? : CallArgument → Option BufferId
  | .scalar _ => none
  | .buffer id _ => some id

/-- The buffers that an instruction itself touches or hands over. Those of the
    body of a loop are counted with its steps. -/
def Instruction.buffers : Instruction → List BufferId
  | .binary .. | .loop .. => []
  | .load _ buffer _ | .store buffer _ _ => [buffer]
  | .call _ args _ => args.filterMap CallArgument.buffer?

mutual

/-- Whether an instruction reads only registers that have been assigned on every
    path, and uses only buffers that are declared. -/
def Instruction.Closed (declared : List BufferId) (assigned : List RegisterId) : Instruction → Prop
  | .binary _ _ a b => a.registers ⊆ assigned ∧ b.registers ⊆ assigned
  | .load _ buffer offset => buffer ∈ declared ∧ offset.registers ⊆ assigned
  | .store buffer offset value => buffer ∈ declared ∧ offset.registers ⊆ assigned ∧ value.registers ⊆ assigned
  | .loop induction _ body => blockClosed declared (induction :: assigned) body
  | .call _ args _ => ∀ arg ∈ args, arg.Closed declared assigned

/-- Whether each instruction of a block reads only registers that have been
    assigned by then. -/
def blockClosed (declared : List BufferId) (assigned : List RegisterId) : List Instruction → Prop
  | [] => True
  | instruction :: rest =>
    instruction.Closed declared assigned ∧ blockClosed declared (instruction.assigns ++ assigned) rest

end

/-- The registers that are assigned once a block has been executed. Those
    assigned inside loops are not among them, as a loop may have no passes. -/
def assignedBy (assigned : List RegisterId) (code : List Instruction) : List RegisterId :=
  code.foldl (fun assigned instruction => instruction.assigns ++ assigned) assigned

section

variable {declared declared' : List BufferId} {assigned assigned' : List RegisterId}

theorem assignedBy_append (code more : List Instruction) :
    assignedBy assigned (code ++ more) = assignedBy (assignedBy assigned code) more :=
  List.foldl_append

/-- What was assigned before a block is so after it. Blocks only assign. -/
theorem subset_assignedBy (code : List Instruction) : assigned ⊆ assignedBy assigned code := by
  induction code generalizing assigned with
  | nil => exact List.Subset.refl _
  | cons instruction code ih => exact List.Subset.trans (List.subset_append_right _ _) ih

/-- Code followed by more is closed if the second part is closed where the first
    has assigned its registers. -/
theorem blockClosed_append {code more : List Instruction} : blockClosed declared assigned (code ++ more) ↔
    blockClosed declared assigned code ∧ blockClosed declared (assignedBy assigned code) more := by
  induction code generalizing assigned with
  | nil => simp [blockClosed, assignedBy]
  | cons instruction code ih =>
    simp only [List.cons_append, blockClosed, ih, and_assoc]
    rfl

theorem append_subset_append (registers : List RegisterId) (h : assigned ⊆ assigned') :
    registers ++ assigned ⊆ registers ++ assigned' :=
  List.append_subset.mpr ⟨List.subset_append_left _ _, List.Subset.trans h (List.subset_append_right _ _)⟩

theorem Value.Within.mono {value : Value} (hdeclared : declared ⊆ declared') (hassigned : assigned ⊆ assigned')
    (h : value.Within declared assigned) : value.Within declared' assigned' :=
  ⟨List.Subset.trans h.1 hassigned, List.Subset.trans h.2 hdeclared⟩

/-- An argument stays closed where more is assigned or declared. It reads what
    it did before. -/
theorem CallArgument.Closed.mono {argument : CallArgument} (hdeclared : declared ⊆ declared')
    (hassigned : assigned ⊆ assigned') (h : argument.Closed declared assigned) :
    argument.Closed declared' assigned' := by
  cases argument with
  | scalar operand => exact List.Subset.trans h hassigned
  | buffer id offset => exact ⟨hdeclared h.1, List.Subset.trans h.2 hassigned⟩

/-- A closed instruction uses declared buffers only. -/
theorem Instruction.Closed.buffers_subset {instruction : Instruction} (h : instruction.Closed declared assigned) :
    instruction.buffers ⊆ declared := by
  cases instruction with
  | binary | loop => exact List.nil_subset _
  | load => exact List.cons_subset.mpr ⟨h.1, List.nil_subset _⟩
  | store => exact List.cons_subset.mpr ⟨h.1, List.nil_subset _⟩
  | call symbol args output =>
    intro id hmem
    obtain ⟨arg, harg, hid⟩ := List.mem_filterMap.mp hmem
    cases arg with
    | scalar => cases hid
    | buffer found offset =>
      cases hid
      exact (h _ harg).1

/-- A closed block touches and hands over only buffers that are declared. -/
theorem buffers_subset_of_blockClosed {code : List Instruction} (h : blockClosed declared assigned code)
    {instruction : Instruction} (hmem : instruction ∈ code) : instruction.buffers ⊆ declared := by
  induction code generalizing assigned with
  | nil => cases hmem
  | cons first code ih =>
    rcases List.mem_cons.mp hmem with rfl | hmem
    · exact h.1.buffers_subset
    · exact ih h.2 hmem

mutual

/-- Where more is assigned or declared, code stays closed. By recursion on the
    code. -/
theorem Instruction.Closed.mono (hdeclared : declared ⊆ declared') {assigned assigned' : List RegisterId}
    (hassigned : assigned ⊆ assigned') : {instruction : Instruction} → instruction.Closed declared assigned →
      instruction.Closed declared' assigned'
  | .binary _ _ _ _, h => ⟨List.Subset.trans h.1 hassigned, List.Subset.trans h.2 hassigned⟩
  | .load _ _ _, h => ⟨hdeclared h.1, List.Subset.trans h.2 hassigned⟩
  | .store _ _ _, h => ⟨hdeclared h.1, List.Subset.trans h.2.1 hassigned, List.Subset.trans h.2.2 hassigned⟩
  | .loop _ _ _, h => blockClosed_mono hdeclared (List.cons_subset_cons _ hassigned) h
  | .call _ _ _, h => fun arg hmem => (h arg hmem).mono hdeclared hassigned

/-- The same for a block. By recursion on the code. -/
theorem blockClosed_mono (hdeclared : declared ⊆ declared') {assigned assigned' : List RegisterId}
    (hassigned : assigned ⊆ assigned') : {code : List Instruction} → blockClosed declared assigned code →
      blockClosed declared' assigned' code
  | [], _ => trivial
  | instruction :: _, h => ⟨h.1.mono hdeclared hassigned,
      blockClosed_mono hdeclared (append_subset_append instruction.assigns hassigned) h.2⟩

end

end

namespace Emitter

/-- Whatever an action records is closed, where so much is declared and
    assigned, and its result is as described where so much is assigned then. -/
def Closes {α : Type} (emitter : Emitter) (builder : FunctionBuilder) (declared : List BufferId)
    (assigned : List RegisterId) (action : EmitterM α) (post : α → List RegisterId → Prop) : Prop :=
  emitter.Adds builder action fun outcome f => blockClosed declared assigned f.code ∧
    ∀ result, outcome = .ok result → post result (assignedBy assigned f.code)

namespace Closes

variable {α β : Type} {emitter : Emitter} {builder : FunctionBuilder} {declared : List BufferId}
  {assigned : List RegisterId} {action : EmitterM α} {post : α → List RegisterId → Prop}

theorem pure {value : α} (h : post value assigned) :
    emitter.Closes builder declared assigned (Pure.pure value) post := by
  refine Adds.pure ⟨trivial, ?_⟩
  rintro _ ⟨⟩
  exact h

theorem fail {cause : ValueError} : emitter.Closes builder declared assigned (Stateful.fail cause) post := by
  refine Adds.fail ⟨trivial, ?_⟩
  rintro _ ⟨⟩

theorem lift_bind {m : Type → Type} [MonadLiftT m (Except (Failure ValueError))] {x : m α} {next : α → EmitterM β}
    {post : β → List RegisterId → Prop} (h : ∀ value, emitter.Closes builder declared assigned (next value) post) :
    emitter.Closes builder declared assigned (liftM x >>= next) post :=
  Adds.lift_bind (fun _ => ⟨trivial, fun _ heq => nomatch heq⟩) fun value _ => h value

/-- The rest of a sequence may use all that its first part has assigned, and is
    closed then. -/
theorem bind {next : α → EmitterM β} {post' : β → List RegisterId → Prop}
    (h : emitter.Closes builder declared assigned action post)
    (hnext : ∀ value builder assigned', assigned ⊆ assigned' → post value assigned' →
      emitter.Closes builder declared assigned' (next value) post') :
    emitter.Closes builder declared assigned (action >>= next) post' := by
  refine Adds.bind h (fun failure f hpost => ⟨hpost.1, fun _ heq => nomatch heq⟩) fun value f hpost => ?_
  refine (hnext value _ _ (subset_assignedBy f.code) (hpost.2 value rfl)).mono fun outcome g hpost' => ⟨?_, ?_⟩
  · exact blockClosed_append.mpr ⟨hpost.1, hpost'.1⟩
  · rw [Fragment.append, assignedBy_append]
    exact hpost'.2

theorem get_bind {next : Emitter → EmitterM α}
    (h : emitter.Closes builder declared assigned (next (emitter.emitting builder)) post) :
    emitter.Closes builder declared assigned (get >>= next) post :=
  Adds.get_bind h

/-- Making something of a result records nothing more. -/
theorem map {k : α → β} {post' : β → List RegisterId → Prop} (h : emitter.Closes builder declared assigned action post)
    (hpost : ∀ value assigned, post value assigned → post' (k value) assigned) :
    emitter.Closes builder declared assigned (do return k (← action)) post' :=
  h.bind fun value _ _ _ hvalue => .pure (hpost value _ hvalue)

/-- An instruction with a result. -/
theorem emitWithOutput {instruction : RegisterId → Instruction}
    (hclosed : ∀ output, (instruction output).Closed declared assigned)
    (hassigns : ∀ output, (instruction output).assigns = [output]) :
    emitter.Closes builder declared assigned (Emitter.emitWithOutput instruction) (· ∈ ·) := by
  rw [← bind_pure (Emitter.emitWithOutput instruction)]
  refine Adds.emitWithOutput_bind (.pure ⟨?_, ?_⟩)
  · rw [Fragment.append_empty]
    exact ⟨hclosed _, trivial⟩
  · rintro _ ⟨⟩
    simp [Fragment.append_empty, assignedBy, hassigns]

/-- An instruction that assigns nothing. -/
theorem emit {instruction : Instruction} (hclosed : instruction.Closed declared assigned) :
    emitter.Closes builder declared assigned (do setBuilder ((← Emitter.builder).emit instruction)) fun _ _ => True :=
  Adds.builder_bind (Adds.setBuilder_emit ⟨⟨hclosed, trivial⟩, fun _ _ => trivial⟩)

/-- An operation on closed operands has a closed result. If it is computed at
    once, nothing is recorded. -/
theorem binaryOperand (op : BinaryOp) {a b : Operand} (ha : a.registers ⊆ assigned) (hb : b.registers ⊆ assigned) :
    emitter.Closes builder declared assigned (Emitter.binaryOperand op a b) (·.registers ⊆ ·) := by
  unfold Emitter.binaryOperand
  split
  · exact lift_bind fun _ => .pure (List.nil_subset _)
  · exact .map (.emitWithOutput (fun _ => ⟨ha, hb⟩) fun _ => rfl) fun _ _ hmem => List.cons_subset.mpr ⟨hmem, List.nil_subset _⟩

end Closes

end Emitter

namespace Emit

variable {emitter : Emitter} {builder : FunctionBuilder} {declared : List BufferId} {assigned : List RegisterId}

/-- The operand of a value in scope reads assigned registers only. It may have
    been loaded into a new one. -/
theorem closes_operand {value : Value} (h : value.Within declared assigned) :
    emitter.Closes builder declared assigned (operand value) (·.registers ⊆ ·) := by
  refine .lift_bind fun _ => ?_
  split
  · exact .pure (List.nil_subset _)
  · next id hdata =>
    rw [Value.Within, Value.registers, hdata] at h
    exact .pure h.1
  · next id offset hdata =>
    rw [Value.Within, Value.registers, Value.buffers, hdata] at h
    exact .map (.emitWithOutput (fun _ => ⟨h.2 List.mem_cons_self, h.1⟩) fun _ => rfl)
      fun _ _ hmem => List.cons_subset.mpr ⟨hmem, List.nil_subset _⟩
  · exact .fail

theorem closes_indexOperand {coordinate : Scalar} (extent : Nat) (h : coordinate.value.Within declared assigned) :
    emitter.Closes builder declared assigned (indexOperand coordinate extent) (·.registers ⊆ ·) := by
  unfold indexOperand
  split
  · refine .lift_bind fun _ => ?_
    split
    · exact .fail
    · exact .pure (List.nil_subset _)
  · exact .lift_bind fun _ => closes_operand h

/-- So does the offset of an element. By induction on the dimensions. -/
theorem closes_offsetOperand {offset : Operand} {extents increments : List Nat} {coordinates : List Scalar}
    (hoffset : offset.registers ⊆ assigned) (hcoordinates : ∀ coordinate ∈ coordinates,
      coordinate.value.Within declared assigned) :
    emitter.Closes builder declared assigned (offsetOperand offset extents increments coordinates) (·.registers ⊆ ·) := by
  induction extents generalizing offset increments coordinates builder assigned with
  | nil => exact .pure hoffset
  | cons extent extents ih =>
    cases increments with
    | nil => exact .pure hoffset
    | cons increment increments =>
      cases coordinates with
      | nil => exact .pure hoffset
      | cons coordinate coordinates =>
        refine .bind (closes_indexOperand extent (hcoordinates coordinate List.mem_cons_self)) fun index _ assigned₁ h₁ hindex => ?_
        refine .bind (.binaryOperand .mul hindex (List.nil_subset _)) fun term _ assigned₂ h₂ hterm => ?_
        have hoffset₂ := List.Subset.trans hoffset (List.Subset.trans h₁ h₂)
        refine .bind (.binaryOperand .add hoffset₂ hterm) fun place _ assigned₃ h₃ hplace => ?_
        exact ih hplace fun found hmem => (hcoordinates found (List.mem_cons_of_mem _ hmem)).mono (List.Subset.refl _)
          (List.Subset.trans h₁ (List.Subset.trans h₂ h₃))

theorem closes_valueOf {action : EmitterM Operand} (dtype : DType)
    (h : emitter.Closes builder declared assigned action (·.registers ⊆ ·)) :
    emitter.Closes builder declared assigned (do return valueOf dtype (← action)) fun value assigned =>
      value.Within declared assigned := by
  refine h.map fun operand assigned hoperand => ?_
  cases operand <;> exact ⟨hoperand, List.nil_subset _⟩

theorem closes_load {value : Value} (h : value.Within declared assigned) :
    emitter.Closes builder declared assigned (load value) fun value assigned => value.Within declared assigned :=
  closes_valueOf value.dtype (closes_operand h)

/-- An element of a value is taken by closed code if value and coordinates are
    made up of what there is. -/
theorem closes_element {value : Value} {coordinates : List Scalar} (h : value.Within declared assigned)
    (hcoordinates : ∀ coordinate ∈ coordinates, coordinate.value.Within declared assigned) :
    emitter.Closes builder declared assigned (element value coordinates) fun value assigned =>
      value.Within declared assigned := by
  refine .lift_bind fun _ => ?_
  split
  · next id offset hdata =>
    rw [Value.Within, Value.registers, Value.buffers, hdata] at h
    exact .map (closes_offsetOperand h.1 hcoordinates) fun place _ hplace => ⟨hplace, h.2⟩
  · exact .pure h
  · exact .pure h
  · exact .fail

theorem closes_store {destination source : Value} (hdestination : destination.Within declared assigned)
    (hsource : source.Within declared assigned) :
    emitter.Closes builder declared assigned (store destination source) fun _ _ => True := by
  refine .lift_bind fun _ => .lift_bind fun _ => ?_
  split
  · next id offset hdata =>
    rw [Value.Within, Value.registers, Value.buffers, hdata] at hdestination
    refine .bind (closes_operand hsource) fun value _ assigned' hle hvalue => ?_
    exact .emit ⟨hdestination.2 List.mem_cons_self, List.Subset.trans hdestination.1 hle, hvalue⟩
  · exact .fail
  · exact .fail
  · exact .fail

theorem closes_binary (op : BinaryOp) {a b : Value} (ha : a.Within declared assigned)
    (hb : b.Within declared assigned) :
    emitter.Closes builder declared assigned (binary op a b) fun value assigned => value.Within declared assigned := by
  refine .lift_bind fun _ => .bind (closes_operand ha) fun x _ assigned₁ h₁ hx => ?_
  refine .bind (closes_operand (hb.mono (List.Subset.refl _) h₁)) fun y _ assigned₂ h₂ hy => ?_
  exact closes_valueOf a.dtype (.binaryOperand op (List.Subset.trans hx h₂) hy)

theorem closes_callArgument {value : Value} (h : value.Within declared assigned) :
    emitter.Closes builder declared assigned (callArgument value) (·.Closed declared ·) := by
  unfold callArgument
  split
  · next id offset hdata =>
    rw [Value.Within, Value.registers, Value.buffers, hdata] at h
    exact .pure ⟨h.2 List.mem_cons_self, h.1⟩
  · exact .map (closes_operand h) fun _ _ hoperand => hoperand
  · exact .map (closes_operand h) fun _ _ hoperand => hoperand
  · exact .fail

/-- What a call hands over is closed if its values are in scope. Scalars are
    loaded for it one by one. -/
theorem closes_callArguments {values : List Value}
    (h : ∀ value ∈ values, value.Within declared assigned) :
    emitter.Closes builder declared assigned (callArguments values)
      fun arguments assigned => ∀ argument ∈ arguments, argument.Closed declared assigned := by
  induction values generalizing builder assigned with
  | nil => exact .pure fun _ hmem => nomatch hmem
  | cons value values ih =>
    refine .bind (closes_callArgument (h value List.mem_cons_self)) fun first _ assigned₁ h₁ hfirst => ?_
    have hrest := fun found hmem => (h found (List.mem_cons_of_mem _ hmem)).mono (List.Subset.refl _) h₁
    refine .bind (ih hrest) fun rest _ assigned₂ h₂ hrest => .pure ?_
    exact List.forall_mem_cons.mpr ⟨hfirst.mono (List.Subset.refl _) h₂, hrest⟩

/-- Calling a function with values that are made up of what there is records
    closed code, and the result is in a register that this code assigns. -/
theorem closes_call (function : FunctionDeclaration) {args : List Value}
    (hargs : ∀ arg ∈ args, arg.Within declared assigned) :
    emitter.Closes builder declared assigned (call function args)
      fun result assigned => ∀ value, result = some value → value.Within declared assigned := by
  unfold call
  refine .get_bind (.bind (closes_callArguments hargs) fun arguments _ assigned' h harguments => ?_)
  split
  · refine .map (.emitWithOutput (fun _ => harguments) fun _ => rfl) fun output _ hmem => ?_
    rintro _ ⟨⟩
    exact ⟨List.cons_subset.mpr ⟨hmem, List.nil_subset _⟩, List.nil_subset _⟩
  · rw [← bind_assoc]
    exact .bind (.emit harguments) fun _ _ _ _ _ => .pure fun _ heq => nomatch heq

end Emit

namespace Operation

variable {emitter : Emitter} {builder : FunctionBuilder} {declared : List BufferId} {assigned : List RegisterId}

/-- A closed operation that has a result, in the form in which a script performs
    its operations. -/
theorem adds_closed_of_some {action : EmitterM Value}
    (h : emitter.Closes builder declared assigned action fun value assigned => value.Within declared assigned) :
    emitter.Adds builder (some <$> action) fun outcome f => blockClosed declared assigned f.code ∧
      ∀ value, outcome = .ok (some value) →
        value.Within (f.buffers.map BufferDeclaration.id ++ declared) (assignedBy assigned f.code) := by
  rw [map_eq_pure_bind]
  refine .map (h.mono fun outcome f hpost => ⟨hpost.1, fun value heq => ?_⟩)
  cases outcome with
  | error failure => cases heq
  | ok result =>
    cases heq
    exact (hpost.2 value rfl).mono (List.subset_append_right _ _) (List.Subset.refl _)

/-- Storage that is allocated is declared from then on. No instruction is
    recorded for it. -/
theorem adds_closed_allocate (dtype : DType) (layout : Layout) :
    emitter.Adds builder (allocate dtype layout).emit fun outcome f => blockClosed declared assigned f.code ∧
      ∀ value, outcome = .ok (some value) →
        value.Within (f.buffers.map BufferDeclaration.id ++ declared) (assignedBy assigned f.code) := by
  unfold emit
  dsimp only
  rw [map_eq_pure_bind]
  refine .map ((Emit.adds_allocate emitter builder dtype layout).mono fun outcome f hpost => ?_)
  obtain ⟨hcode, -, hvalue⟩ := hpost
  rw [hcode]
  refine ⟨trivial, fun value heq => ?_⟩
  cases outcome with
  | error failure => cases heq
  | ok result =>
    cases heq
    obtain ⟨length, -, rfl, hbuffers⟩ := hvalue value rfl
    rw [hbuffers]
    exact ⟨List.nil_subset _, List.cons_subset.mpr ⟨List.mem_cons_self, List.nil_subset _⟩⟩

/-- What an operation on given values records uses nothing else but what it
    records itself, and so does its result, which may also be storage that is
    new. -/
theorem adds_closed (operation : Operation) (h : ∀ value ∈ operation.values, value.Within declared assigned) :
    emitter.Adds builder operation.emit fun outcome f => blockClosed declared assigned f.code ∧
      ∀ value, outcome = .ok (some value) →
        value.Within (f.buffers.map BufferDeclaration.id ++ declared) (assignedBy assigned f.code) := by
  cases operation with
  | allocate dtype layout => exact adds_closed_allocate dtype layout
  | element value coordinates =>
    obtain ⟨hvalue, hcoordinates⟩ := List.forall_mem_cons.mp h
    refine adds_closed_of_some (Emit.closes_element hvalue fun coordinate hmem => ?_)
    exact hcoordinates _ (List.mem_map_of_mem hmem)
  | load value => exact adds_closed_of_some (Emit.closes_load (h value List.mem_cons_self))
  | store destination source =>
    have hsource := h source (List.mem_cons_of_mem _ List.mem_cons_self)
    have hstore := @Emit.closes_store emitter builder _ _ _ _ (h destination List.mem_cons_self) hsource
    unfold emit
    dsimp only
    rw [map_eq_pure_bind]
    refine .map (hstore.mono fun outcome f hpost => ⟨hpost.1, fun value heq => ?_⟩)
    cases outcome <;> cases heq
  | binary op a b =>
    exact adds_closed_of_some (Emit.closes_binary op (h a List.mem_cons_self)
      (h b (List.mem_cons_of_mem _ List.mem_cons_self)))
  | call function args =>
    refine (Emit.closes_call function h).mono fun outcome f hpost => ⟨hpost.1, fun value heq => ?_⟩
    exact (hpost.2 _ heq value rfl).mono (List.subset_append_right _ _) (List.Subset.refl _)

end Operation

/-- So does what is recorded to return a value. -/
theorem Emitter.closes_resultOperand {emitter : Emitter} {builder : FunctionBuilder} {declared : List BufferId}
    {assigned : List RegisterId} (function : FunctionDeclaration) {result : Option Value}
    (h : ∀ value ∈ result.toList, value.Within declared assigned) :
    emitter.Closes builder declared assigned (resultOperand function result)
      fun operand assigned => ∀ found, operand = some found → found.registers ⊆ assigned := by
  unfold resultOperand
  split
  · next value type hreturn =>
    refine .lift_bind fun _ => .map (Emit.closes_operand (h value (by simp))) fun operand _ hoperand => ?_
    rintro _ ⟨⟩
    exact hoperand
  · exact .pure fun _ heq => nomatch heq
  · exact .fail
  · exact .fail

end StagedArrays
