import StagedArrays.Code.Document

namespace StagedArrays

namespace Document

@[simp]
theorem depth_null : null.depth = 0 := rfl

@[simp]
theorem depth_text (value : String) : (text value).depth = 0 := rfl

@[simp]
theorem depth_ofNat (n : Nat) : (ofNat n).depth = 0 := rfl

@[simp]
theorem depth_list (items : List Document) : (list items).depth = itemsDepth items + 1 := by rw [depth]

@[simp]
theorem depth_record (fields : List (String × Document)) :
    (record fields).depth = fieldsDepth fields + 1 := by rw [depth]

@[simp]
theorem itemsDepth_nil : itemsDepth [] = 0 := by rw [itemsDepth]

@[simp]
theorem itemsDepth_cons (item : Document) (rest : List Document) :
    itemsDepth (item :: rest) = max item.depth (itemsDepth rest) := by rw [itemsDepth]

@[simp]
theorem fieldsDepth_nil : fieldsDepth [] = 0 := by rw [fieldsDepth]

@[simp]
theorem fieldsDepth_cons (name : String) (content : Document) (rest : List (String × Document)) :
    fieldsDepth ((name, content) :: rest) = max content.depth (fieldsDepth rest) := by rw [fieldsDepth]

@[simp]
theorem depth_variant (tag : String) (content : Document) :
    (variant tag content).depth = content.depth + 1 := by simp [variant]

@[simp]
theorem depth_ofHandle (index : Nat) : (ofHandle index).depth = 1 := by simp [ofHandle]

variable {α : Type} {write : α → Document} {bound : Nat}

/-- A list nests one level deeper than its members. The bound for members may be
    a common one. -/
theorem depth_ofList_le {items : List α} (h : ∀ x ∈ items, (write x).depth ≤ bound) :
    (ofList write items).depth ≤ bound + 1 := by
  rw [ofList, depth_list, Nat.add_le_add_iff_right]
  induction items with
  | nil => simp
  | cons item rest ih =>
    obtain ⟨hitem, hrest⟩ := List.forall_mem_cons.mp h
    rw [List.map_cons, itemsDepth_cons]
    exact Nat.max_le.mpr ⟨hitem, ih hrest⟩

/-- What is optional is written no deeper than its contents. An absent value is
    written flat. -/
theorem depth_ofOption_le {o : Option α} (h : ∀ x ∈ o, (write x).depth ≤ bound) :
    (ofOption write o).depth ≤ bound := by
  cases o with
  | none => simp [ofOption]
  | some x => exact h x rfl

end Document

@[simp]
theorem RegisterId.depth_toDocument (id : RegisterId) : id.toDocument.depth = 1 := Document.depth_ofHandle _

@[simp]
theorem BufferId.depth_toDocument (id : BufferId) : id.toDocument.depth = 1 := Document.depth_ofHandle _

@[simp]
theorem DType.depth_toDocument (dtype : DType) : dtype.toDocument.depth = 0 := rfl

@[simp]
theorem BinaryOp.depth_toDocument (op : BinaryOp) : op.toDocument.depth = 0 := rfl

theorem Numeric.depth_toDocument (x : Numeric) : x.toDocument.depth = 1 := by
  cases x <;> simp only [toDocument, Document.depth_variant] <;> first | rfl | split <;> rfl

@[simp]
theorem Operand.depth_toDocument (operand : Operand) : operand.toDocument.depth = 2 := by
  cases operand <;> simp [toDocument, Numeric.depth_toDocument]

theorem CallArgument.depth_toDocument_le (argument : CallArgument) : argument.toDocument.depth ≤ 4 := by
  cases argument <;> simp [toDocument]

/-- A type nests through its layout to the lists of extents and increments. -/
theorem ValueType.depth_toDocument_le (type : ValueType) : type.toDocument.depth ≤ 3 := by
  have hwords (ns : List Nat) : (Document.ofList Document.ofNat ns).depth ≤ 0 + 1 :=
    Document.depth_ofList_le fun n _ => Nat.le_of_eq (Document.depth_ofNat n)
  have hextents := hwords type.layout.extents
  have hincrements := hwords type.layout.increments
  simp only [toDocument, Layout.toDocument, Document.depth_record, Document.fieldsDepth_cons, Document.fieldsDepth_nil,
    DType.depth_toDocument, Document.depth_ofNat]
  omega

theorem ParameterBinding.depth_toDocument (binding : ParameterBinding) : binding.toDocument.depth = 2 := by
  cases binding <;> simp [toDocument]

theorem BufferDeclaration.depth_toDocument_le (declaration : BufferDeclaration) :
    declaration.toDocument.depth ≤ 2 := by
  have hsource : declaration.source.toDocument.depth ≤ 1 := by
    cases declaration.source <;> simp [BufferSource.toDocument]
  simp [toDocument, hsource]

mutual

/-- How many loops of an instruction lie around each other, at most. Loops side
    by side count once. -/
def Instruction.nesting : Instruction → Nat
  | .loop _ _ body => blockNesting body + 1
  | .binary .. | .load .. | .store .. | .call .. => 0

/-- How many loops of a block lie around each other, at most. -/
def blockNesting : List Instruction → Nat
  | [] => 0
  | instruction :: rest => max instruction.nesting (blockNesting rest)

end

mutual

/-- A loop adds three levels to the depth of its body: its variant, its fields
    and the list. -/
theorem Instruction.depth_toDocument_le :
    (instruction : Instruction) → instruction.toDocument.depth ≤ 3 * instruction.nesting + 7
  | .loop induction extent body => by
    have hbody := itemsDepth_blockDocuments_le body
    simp only [Instruction.toDocument, Instruction.nesting, Document.depth_variant, Document.depth_record,
      Document.fieldsDepth_cons, Document.fieldsDepth_nil, Document.depth_list,
      RegisterId.depth_toDocument, Document.depth_ofNat]
    omega
  | .binary .. | .load .. | .store .. => by simp [Instruction.toDocument]
  | .call symbol args output => by
    have hargs : (Document.ofList CallArgument.toDocument args).depth ≤ 4 + 1 :=
      Document.depth_ofList_le fun argument _ => argument.depth_toDocument_le
    have houtput : (Document.ofOption RegisterId.toDocument output).depth ≤ 1 :=
      Document.depth_ofOption_le fun id _ => Nat.le_of_eq id.depth_toDocument
    simp only [Instruction.toDocument, Document.depth_variant, Document.depth_record, Document.fieldsDepth_cons,
      Document.fieldsDepth_nil, Document.depth_text]
    omega

/-- A block is written three levels deeper for each level of loops. By recursion
    on the code. -/
theorem itemsDepth_blockDocuments_le :
    (block : List Instruction) → Document.itemsDepth (blockDocuments block) ≤ 3 * blockNesting block + 7
  | [] => by simp [blockDocuments]
  | instruction :: rest => by
    have hfirst := instruction.depth_toDocument_le
    have hrest := itemsDepth_blockDocuments_le rest
    rw [blockDocuments, Document.itemsDepth_cons, blockNesting]
    omega

end

/-- All parts of a function but its body nest to a fixed depth. Each loop of the
    body adds three levels: the variant, its record and the list of
    instructions. -/
theorem EmittedFunction.depth_toDocument_le (function : EmittedFunction) :
    function.toDocument.depth ≤ 3 * blockNesting function.body + 9 := by
  have hparameters : (Document.ofList ValueType.toDocument function.parameters).depth ≤ 3 + 1 :=
    Document.depth_ofList_le fun type _ => type.depth_toDocument_le
  have hbindings : (Document.ofList ParameterBinding.toDocument function.bindings).depth ≤ 2 + 1 :=
    Document.depth_ofList_le fun binding _ => Nat.le_of_eq binding.depth_toDocument
  have hreturnType : (Document.ofOption ValueType.toDocument function.returnType).depth ≤ 3 :=
    Document.depth_ofOption_le fun type _ => type.depth_toDocument_le
  have hbuffers : (Document.ofList BufferDeclaration.toDocument function.buffers).depth ≤ 2 + 1 :=
    Document.depth_ofList_le fun declaration _ => declaration.depth_toDocument_le
  have hbody := itemsDepth_blockDocuments_le function.body
  have hresult : (Document.ofOption Operand.toDocument function.result).depth ≤ 2 :=
    Document.depth_ofOption_le fun operand _ => Nat.le_of_eq operand.depth_toDocument
  simp only [toDocument, Document.depth_record, Document.fieldsDepth_cons, Document.fieldsDepth_nil,
    Document.depth_text, Document.depth_list]
  omega

/-- Modules nest no more than the loops in them make them. All else together
    adds a constant. -/
theorem EmittedModule.depth_toDocument_le {program : EmittedModule} {loops : Nat}
    (h : ∀ function ∈ program.functions, blockNesting function.body ≤ loops) :
    program.toDocument.depth ≤ 3 * loops + 11 := by
  have hfunctions : (Document.ofList EmittedFunction.toDocument program.functions).depth ≤ 3 * loops + 9 + 1 :=
    Document.depth_ofList_le fun function hmem => by
      have hbody := h function hmem
      have hdepth := function.depth_toDocument_le
      omega
  simp only [toDocument, Document.depth_record, Document.fieldsDepth_cons, Document.fieldsDepth_nil,
    Document.depth_text]
  omega

/-- As many empty loops as given, each the body of the one before. The depth of
    what is written grows with nothing else. -/
def nestedLoops : Nat → Nat → List Instruction
  | 0, _ => []
  | count + 1, register => [.loop ⟨register⟩ 0 (nestedLoops count (register + 1))]

/-- The bound for loops is attained by loops with nothing in them but the
    next. -/
theorem itemsDepth_nestedLoops (count register : Nat) :
    Document.itemsDepth (blockDocuments (nestedLoops count register)) = 3 * count := by
  induction count generalizing register with
  | zero => simp [nestedLoops, blockDocuments]
  | succ count ih =>
    simp only [nestedLoops, blockDocuments, Instruction.toDocument, Document.itemsDepth_cons,
      Document.itemsDepth_nil, Document.depth_variant, Document.depth_record, Document.fieldsDepth_cons,
      Document.fieldsDepth_nil, Document.depth_list, RegisterId.depth_toDocument, Document.depth_ofNat,
      ih (register + 1)]
    omega

namespace EmittedModule

/-- The module of one function with nothing but loops around each other. -/
def ofNestedLoops (count : Nat) : EmittedModule :=
  ⟨"m", [⟨"f", "m_f", [], [], none, [], nestedLoops count 0, none⟩]⟩

theorem depth_ofNestedLoops (count : Nat) : (ofNestedLoops count).toDocument.depth = 3 * count + 4 := by
  simp [ofNestedLoops, toDocument, EmittedFunction.toDocument, Document.ofList, Document.ofOption,
    itemsDepth_nestedLoops]

end EmittedModule

end StagedArrays
