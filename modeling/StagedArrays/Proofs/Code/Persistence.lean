import StagedArrays.Code.Decidable
import StagedArrays.Proofs.Code.Depth
import StagedArrays.Proofs.Code.Reading

namespace StagedArrays

open Document (Reads)

namespace DType

theorem ofDocument?_toDocument (dtype : DType) : ofDocument? dtype.toDocument = some dtype :=
  ofTag?_tag dtype

end DType

namespace BinaryOp

theorem ofDocument?_toDocument (op : BinaryOp) : ofDocument? op.toDocument = some op := ofName?_name op

end BinaryOp

/-- A handle that fits a word is read back as itself. Larger ones are
    refused. -/
theorem Document.handle?_ofHandle {index : Nat} (h : index < Word.bound) :
    (Document.ofHandle index).handle? = some index := by
  rw [handle?, ofHandle, fields?_record rfl (by decide)]
  exact nat?_ofNat h

namespace RegisterId

theorem ofDocument?_toDocument {id : RegisterId} (h : id.index < Word.bound) :
    ofDocument? id.toDocument = some id := by
  rw [ofDocument?, toDocument, Document.handle?_ofHandle h]
  rfl

end RegisterId

namespace BufferId

theorem ofDocument?_toDocument {id : BufferId} (h : id.index < Word.bound) :
    ofDocument? id.toDocument = some id := by
  rw [ofDocument?, toDocument, Document.handle?_ofHandle h]
  rfl

end BufferId

namespace Layout

def words (layout : Layout) : List Nat := layout.extents ++ layout.increments

/-- A layout is read back. Extents and increments are read as machine words,
    which they are if the layout was made by the library. -/
theorem ofDocument?_toDocument {layout : Layout} (h : ∀ n ∈ layout.words, n < Word.bound) :
    ofDocument? layout.toDocument = some layout := by
  obtain ⟨hextents, hincrements⟩ := List.forall_mem_append.mp h
  rw [ofDocument?, toDocument, Document.fields?_record rfl (by decide)]
  change ((Document.ofList Document.ofNat layout.extents).list? (·.nat? 64) >>= fun extents =>
    (Document.ofList Document.ofNat layout.increments).list? (·.nat? 64) >>= fun increments =>
      some ⟨extents, increments⟩) = some layout
  rw [Document.list?_ofList fun n hn => Document.nat?_ofNat (hextents n hn),
    Document.list?_ofList fun n hn => Document.nat?_ofNat (hincrements n hn)]
  rfl

end Layout

namespace ValueType

def words (type : ValueType) : List Nat := type.layout.words

/-- A type is read back if the layout in it is. -/
theorem ofDocument?_toDocument {type : ValueType} (h : ∀ n ∈ type.words, n < Word.bound) :
    ofDocument? type.toDocument = some type := by
  have hlevel : (Document.ofNat type.pointerLevel.toNat).nat? 8 = some type.pointerLevel.toNat :=
    Document.nat?_ofNat type.pointerLevel.toNat_lt
  rw [ofDocument?, toDocument, Document.fields?_record rfl (by decide)]
  change (DType.ofDocument? type.dtype.toDocument >>= fun dtype =>
    (Document.ofNat type.pointerLevel.toNat).nat? 8 >>= fun level =>
      Layout.ofDocument? type.layout.toDocument >>= fun layout =>
        some ⟨dtype, .ofNat level, layout⟩) = some type
  rw [DType.ofDocument?_toDocument, hlevel, Layout.ofDocument?_toDocument h]
  change some (ValueType.mk type.dtype (.ofNat type.pointerLevel.toNat) type.layout) = some type
  rw [UInt8.ofNat_toNat]

end ValueType

namespace BufferSource

def words : BufferSource → List Nat
  | parameter index => [index]
  | own => []

/-- The source of a buffer is read back; the position of a parameter is a
    word. -/
theorem ofDocument?_toDocument {source : BufferSource} (h : ∀ n ∈ source.words, n < Word.bound) :
    ofDocument? source.toDocument = some source := by
  cases source with
  | parameter index =>
    have hindex : (Document.ofNat index).nat? 64 = some index := Document.nat?_ofNat (h index (.head _))
    change ((Document.ofNat index).nat? 64 >>= fun index => some (parameter index)) = _
    rw [hindex]
    rfl
  | own => rfl

end BufferSource

namespace BufferDeclaration

def words (declaration : BufferDeclaration) : List Nat :=
  declaration.id.index :: declaration.length :: declaration.source.words

/-- A declaration is read back, its length being a word. -/
theorem ofDocument?_toDocument {declaration : BufferDeclaration}
    (h : ∀ n ∈ declaration.words, n < Word.bound) :
    ofDocument? declaration.toDocument = some declaration := by
  obtain ⟨hid, h⟩ := List.forall_mem_cons.mp h
  obtain ⟨hlength, hsource⟩ := List.forall_mem_cons.mp h
  have hread : (Document.ofNat declaration.length).nat? 64 = some declaration.length :=
    Document.nat?_ofNat hlength
  rw [ofDocument?, toDocument, Document.fields?_record rfl (by decide)]
  change (BufferId.ofDocument? declaration.id.toDocument >>= fun id =>
    DType.ofDocument? declaration.dtype.toDocument >>= fun dtype =>
      (Document.ofNat declaration.length).nat? 64 >>= fun length =>
        BufferSource.ofDocument? declaration.source.toDocument >>= fun source =>
          some ⟨id, dtype, length, source⟩) = some declaration
  rw [BufferId.ofDocument?_toDocument hid, DType.ofDocument?_toDocument, hread,
    BufferSource.ofDocument?_toDocument hsource]
  rfl

end BufferDeclaration

namespace ParameterBinding

def words : ParameterBinding → List Nat
  | buffer id => [id.index]
  | register id => [id.index]

/-- The binding of a parameter is read back. -/
theorem ofDocument?_toDocument {binding : ParameterBinding} (h : ∀ n ∈ binding.words, n < Word.bound) :
    ofDocument? binding.toDocument = some binding := by
  cases binding with
  | buffer id =>
    change (BufferId.ofDocument? id.toDocument >>= fun id => some (buffer id)) = _
    rw [BufferId.ofDocument?_toDocument (h _ (.head _))]
    rfl
  | register id =>
    change (RegisterId.ofDocument? id.toDocument >>= fun id => some (register id)) = _
    rw [RegisterId.ofDocument?_toDocument (h _ (.head _))]
    rfl

end ParameterBinding

namespace Numeric

/-- Without a written form are the singles and doubles of no finite value. The
    half formats are written by their words. -/
theorem isUnwritable_iff {x : Numeric} : x.isUnwritable = true ↔ (x.dtype = .f64 ∨ x.dtype = .f32) ∧
    ∀ negative significand exponent, x.toFloatValue ≠ .finite negative significand exponent := by
  have hdecode : ∀ (format : FloatFormat) (word : Nat), format.isFinite word = false ↔
      ∀ negative significand exponent, format.decode word ≠ .finite negative significand exponent := by
    intro format word
    simp only [FloatFormat.isFinite, FloatFormat.decode, decide_eq_false_iff_not, not_not]
    split_ifs <;> simp_all
  cases x <;> simp [isUnwritable, dtype, toFloatValue, hdecode]

/-- An immediate is read back unless it is a single or double that is infinite
    or not a number. Half formats are written by their bits and always read
    back. -/
theorem reads (x : Numeric) : Reads (ofDocument? x.toDocument) x (x.isUnwritable = false) := by
  have hword : ∀ {word : UInt16}, (Document.ofNat word.toNat).nat? 16 = some word.toNat :=
    Document.nat?_ofNat (UInt16.toNat_lt _)
  cases x with
  | f64 word =>
    change Reads (Document.double? (if _ then _ else _) >>= fun word => some (f64 word)) _ _
    cases hfinite : FloatFormat.double.isFinite word.toNat with
    | true => exact (Reads.pure (f64 word)).congr (by simp [isUnwritable, hfinite])
    | false => exact .nothing (by simp [isUnwritable, hfinite])
  | f32 word =>
    change Reads (Document.single? (if _ then _ else _) >>= fun word => some (f32 word)) _ _
    cases hfinite : FloatFormat.single.isFinite word.toNat with
    | true => exact (Reads.pure (f32 word)).congr (by simp [isUnwritable, hfinite])
    | false => exact .nothing (by simp [isUnwritable, hfinite])
  | bf16 word =>
    change Reads ((Document.ofNat word.toNat).nat? 16 >>= fun word => some (bf16 (.ofNat word))) _ _
    rw [hword]
    change Reads (some (bf16 (.ofNat word.toNat))) _ _
    rw [UInt16.ofNat_toNat]
    exact (Reads.pure (bf16 word)).congr (by simp [isUnwritable])
  | f16 word =>
    change Reads ((Document.ofNat word.toNat).nat? 16 >>= fun word => some (f16 (.ofNat word))) _ _
    rw [hword]
    change Reads (some (f16 (.ofNat word.toNat))) _ _
    rw [UInt16.ofNat_toNat]
    exact (Reads.pure (f16 word)).congr (by simp [isUnwritable])
  | i64 value =>
    have hrange := And.intro value.minValue_le_toInt value.toInt_le
    change Reads ((if _ then _ else _) >>= fun value => some (i64 (.ofInt value))) _ _
    rw [if_pos hrange]
    change Reads (some (i64 (.ofInt value.toInt))) _ _
    rw [Int64.ofInt_toInt]
    exact (Reads.pure (i64 value)).congr (by simp [isUnwritable])
  | i32 value =>
    have hrange := And.intro value.minValue_le_toInt value.toInt_le
    change Reads ((if _ then _ else _) >>= fun value => some (i32 (.ofInt value))) _ _
    rw [if_pos hrange]
    change Reads (some (i32 (.ofInt value.toInt))) _ _
    rw [Int32.ofInt_toInt]
    exact (Reads.pure (i32 value)).congr (by simp [isUnwritable])

end Numeric

namespace Operand

def words : Operand → List Nat
  | constant _ => []
  | register id => [id.index]

def immediates : Operand → List Numeric
  | constant x => [x]
  | register _ => []

/-- An operand is read back if its immediate is. A register always is. -/
theorem reads {operand : Operand} (h : ∀ n ∈ operand.words, n < Word.bound) :
    Reads (ofDocument? operand.toDocument) operand (∀ x ∈ operand.immediates, x.isUnwritable = false) := by
  cases operand with
  | constant x =>
    change Reads (Numeric.ofDocument? x.toDocument >>= fun x => some (constant x)) _ _
    exact (Reads.bind x.reads (.pure (constant x))).congr (by simp [immediates])
  | register id =>
    change Reads (RegisterId.ofDocument? id.toDocument >>= fun id => some (register id)) _ _
    have hread := RegisterId.ofDocument?_toDocument (h _ (.head _))
    exact (Reads.after hread (.pure (register id))).congr (by simp [immediates])

theorem toDocument_ne_null (operand : Operand) : operand.toDocument ≠ .null := by
  cases operand <;> exact Document.noConfusion

end Operand

namespace CallArgument

def words : CallArgument → List Nat
  | scalar operand => operand.words
  | buffer id offset => id.index :: offset.words

def immediates : CallArgument → List Numeric
  | scalar operand => operand.immediates
  | buffer _ offset => offset.immediates

/-- An argument of a call is read back if its immediates are. -/
theorem reads {argument : CallArgument} (h : ∀ n ∈ argument.words, n < Word.bound) :
    Reads (ofDocument? argument.toDocument) argument
      (∀ x ∈ argument.immediates, x.isUnwritable = false) := by
  cases argument with
  | scalar operand =>
    change Reads (Operand.ofDocument? operand.toDocument >>= fun operand => some (scalar operand)) _ _
    exact (Reads.bind (Operand.reads h) (.pure (scalar operand))).congr (by simp [immediates])
  | buffer id offset =>
    obtain ⟨hid, hoffset⟩ := List.forall_mem_cons.mp h
    change Reads (BufferId.ofDocument? id.toDocument >>= fun id =>
      Operand.ofDocument? offset.toDocument >>= fun offset => some (buffer id offset)) _ _
    refine Reads.congr (.after (BufferId.ofDocument?_toDocument hid)
      (.bind (Operand.reads hoffset) (.pure (buffer id offset)))) ?_
    rw [immediates, and_true]

end CallArgument

mutual

/-- The machine words of an instruction, loops included. What is read back has
    to fit a word again. -/
def Instruction.words : Instruction → List Nat
  | .binary output _ a b => output.index :: (a.words ++ b.words)
  | .load output buffer offset => output.index :: buffer.index :: offset.words
  | .store buffer offset value => buffer.index :: (offset.words ++ value.words)
  | .loop induction extent body => induction.index :: extent :: blockWords body
  | .call _ args output => args.flatMap CallArgument.words ++ output.toList.map RegisterId.index

/-- The machine words of a block. -/
def blockWords : List Instruction → List Nat
  | [] => []
  | instruction :: rest => instruction.words ++ blockWords rest

end

mutual

/-- The immediates of an instruction, loops included. Among them are those that
    may have no written form. -/
def Instruction.immediates : Instruction → List Numeric
  | .binary _ _ a b => a.immediates ++ b.immediates
  | .load _ _ offset => offset.immediates
  | .store _ offset value => offset.immediates ++ value.immediates
  | .loop _ _ body => blockImmediates body
  | .call _ args _ => args.flatMap CallArgument.immediates

/-- The immediates of a block. -/
def blockImmediates : List Instruction → List Numeric
  | [] => []
  | instruction :: rest => instruction.immediates ++ blockImmediates rest

end

namespace Instruction

/-- An operation is read back if its operands are. -/
theorem reads_binary {output : RegisterId} {op : BinaryOp} {a b : Operand}
    (h : ∀ n ∈ (binary output op a b).words, n < Word.bound) :
    Reads (ofDocument? (binary output op a b).toDocument) (binary output op a b)
      (∀ x ∈ (binary output op a b).immediates, x.isUnwritable = false) := by
  rw [words] at h
  obtain ⟨houtput, h⟩ := List.forall_mem_cons.mp h
  obtain ⟨ha, hb⟩ := List.forall_mem_append.mp h
  change Reads (Document.fields? _ _ >>= _) _ _
  rw [Document.fields?_record rfl (by decide)]
  change Reads (RegisterId.ofDocument? output.toDocument >>= fun output =>
    BinaryOp.ofDocument? op.toDocument >>= fun op => Operand.ofDocument? a.toDocument >>= fun a =>
      Operand.ofDocument? b.toDocument >>= fun b => some (binary output op a b)) _ _
  refine Reads.congr (.after (RegisterId.ofDocument?_toDocument houtput) (.after op.ofDocument?_toDocument
    (.bind (Operand.reads ha) (.bind (Operand.reads hb) (.pure (binary output op a b)))))) ?_
  rw [immediates, and_true, List.forall_mem_append]

/-- A load is read back if its offset is. -/
theorem reads_load {output : RegisterId} {buffer : BufferId} {offset : Operand}
    (h : ∀ n ∈ (load output buffer offset).words, n < Word.bound) :
    Reads (ofDocument? (load output buffer offset).toDocument) (load output buffer offset)
      (∀ x ∈ (load output buffer offset).immediates, x.isUnwritable = false) := by
  rw [words] at h
  obtain ⟨houtput, h⟩ := List.forall_mem_cons.mp h
  obtain ⟨hbuffer, hoffset⟩ := List.forall_mem_cons.mp h
  change Reads (Document.fields? _ _ >>= _) _ _
  rw [Document.fields?_record rfl (by decide)]
  change Reads (RegisterId.ofDocument? output.toDocument >>= fun output =>
    BufferId.ofDocument? buffer.toDocument >>= fun buffer =>
      Operand.ofDocument? offset.toDocument >>= fun offset => some (load output buffer offset)) _ _
  refine Reads.congr (.after (RegisterId.ofDocument?_toDocument houtput)
    (.after (BufferId.ofDocument?_toDocument hbuffer)
      (.bind (Operand.reads hoffset) (.pure (load output buffer offset))))) ?_
  rw [immediates, and_true]

/-- A store is read back if its offset and its value are. -/
theorem reads_store {buffer : BufferId} {offset value : Operand}
    (h : ∀ n ∈ (store buffer offset value).words, n < Word.bound) :
    Reads (ofDocument? (store buffer offset value).toDocument) (store buffer offset value)
      (∀ x ∈ (store buffer offset value).immediates, x.isUnwritable = false) := by
  rw [words] at h
  obtain ⟨hbuffer, h⟩ := List.forall_mem_cons.mp h
  obtain ⟨hoffset, hvalue⟩ := List.forall_mem_append.mp h
  change Reads (Document.fields? _ _ >>= _) _ _
  rw [Document.fields?_record rfl (by decide)]
  change Reads (BufferId.ofDocument? buffer.toDocument >>= fun buffer =>
    Operand.ofDocument? offset.toDocument >>= fun offset =>
      Operand.ofDocument? value.toDocument >>= fun value => some (store buffer offset value)) _ _
  refine Reads.congr (.after (BufferId.ofDocument?_toDocument hbuffer) (.bind (Operand.reads hoffset)
    (.bind (Operand.reads hvalue) (.pure (store buffer offset value))))) ?_
  rw [immediates, and_true, List.forall_mem_append]

/-- A call is read back if its arguments are. Its symbol and its output make no
    difference. -/
theorem reads_call {symbol : String} {args : List CallArgument} {output : Option RegisterId}
    (h : ∀ n ∈ (call symbol args output).words, n < Word.bound) :
    Reads (ofDocument? (call symbol args output).toDocument) (call symbol args output)
      (∀ x ∈ (call symbol args output).immediates, x.isUnwritable = false) := by
  rw [words] at h
  obtain ⟨hargs, houtput⟩ := List.forall_mem_append.mp h
  have hargs : ∀ argument ∈ args, Reads (CallArgument.ofDocument? argument.toDocument) argument
      (∀ x ∈ argument.immediates, x.isUnwritable = false) := fun argument hmem =>
    CallArgument.reads fun n hn => hargs n (List.mem_flatMap_of_mem hmem hn)
  have houtput : ∀ id ∈ output, Reads (RegisterId.ofDocument? id.toDocument) id True := fun id hmem =>
    .of_eq_some (RegisterId.ofDocument?_toDocument
      (houtput _ (List.mem_map_of_mem (Option.mem_toList.mpr hmem))))
  change Reads (Document.fields? _ _ >>= _) _ _
  rw [Document.fields?_record rfl (by decide)]
  change Reads ((Document.ofList CallArgument.toDocument args).list? CallArgument.ofDocument? >>= fun args =>
    (Document.ofOption RegisterId.toDocument output).option? RegisterId.ofDocument? >>= fun output =>
      some (call symbol args output)) _ _
  refine Reads.congr (.bind (Reads.list hargs) (.bind (Reads.option (fun _ => Document.noConfusion) houtput)
    (.pure (call symbol args output)))) ?_
  simp only [immediates, List.forall_mem_flatMap, implies_true, and_true]

end Instruction

mutual

/-- An instruction is read back if its immediates are, whatever loops it
    consists of. -/
theorem Instruction.reads : (instruction : Instruction) →
    (∀ n ∈ instruction.words, n < Word.bound) →
    Reads (Instruction.ofDocument? instruction.toDocument) instruction
      (∀ x ∈ instruction.immediates, x.isUnwritable = false)
  | .binary .., h => Instruction.reads_binary h
  | .load .., h => Instruction.reads_load h
  | .store .., h => Instruction.reads_store h
  | .call .., h => Instruction.reads_call h
  | .loop induction extent body, h => by
    rw [Instruction.words] at h
    obtain ⟨hinduction, h⟩ := List.forall_mem_cons.mp h
    obtain ⟨hextent, hbody⟩ := List.forall_mem_cons.mp h
    have hread : (Document.ofNat extent).nat? 64 = some extent := Document.nat?_ofNat hextent
    rw [Instruction.toDocument, Document.variant, Instruction.ofDocument?,
      Document.fields?_record rfl (by decide)]
    change Reads (RegisterId.ofDocument? induction.toDocument >>= fun induction =>
      (Document.ofNat extent).nat? 64 >>= fun extent => instructions? (blockDocuments body) >>= fun body =>
        some (Instruction.loop induction extent body)) _ _
    refine Reads.congr (.after (RegisterId.ofDocument?_toDocument hinduction) (.after hread
      (.bind (blockReads body hbody) (.pure (Instruction.loop induction extent body))))) ?_
    rw [Instruction.immediates, and_true]

/-- A block is read back if each of its instructions is; if one is not, nothing
    is. The induction goes over the block together with that over the
    instructions, since loops contain blocks. -/
theorem blockReads : (block : List Instruction) → (∀ n ∈ blockWords block, n < Word.bound) →
    Reads (instructions? (blockDocuments block)) block (∀ x ∈ blockImmediates block, x.isUnwritable = false)
  | [], _ => (Reads.pure []).congr (by simp [blockImmediates])
  | instruction :: rest, h => by
    rw [blockWords] at h
    obtain ⟨hfirst, hrest⟩ := List.forall_mem_append.mp h
    rw [blockDocuments, instructions?]
    refine Reads.congr (.bind (instruction.reads hfirst) (.bind (blockReads rest hrest)
      (.pure (instruction :: rest)))) ?_
    rw [blockImmediates, and_true, List.forall_mem_append]

end

namespace EmittedFunction

/-- The machine words of a function. -/
def words (function : EmittedFunction) : List Nat :=
  function.parameters.flatMap ValueType.words ++ (function.bindings.flatMap ParameterBinding.words ++
    (function.returnType.toList.flatMap ValueType.words ++
      (function.buffers.flatMap BufferDeclaration.words ++
        (blockWords function.body ++ function.result.toList.flatMap Operand.words))))

/-- The immediates of a function. -/
def immediates (function : EmittedFunction) : List Numeric :=
  blockImmediates function.body ++ function.result.toList.flatMap Operand.immediates

/-- A function is read back if all immediates in its body and its result are. -/
theorem reads {function : EmittedFunction} (h : ∀ n ∈ function.words, n < Word.bound) :
    Reads (ofDocument? function.toDocument) function
      (∀ x ∈ function.immediates, x.isUnwritable = false) := by
  obtain ⟨name, symbol, parameters, bindings, returnType, buffers, body, result⟩ := function
  simp only [words, List.forall_mem_append, List.forall_mem_flatMap, Option.mem_toList] at h
  obtain ⟨hparameters, hbindings, hreturnType, hbuffers, hbody, hresult⟩ := h
  have hreturnType : ∀ type ∈ returnType, Reads (ValueType.ofDocument? type.toDocument) type True :=
    fun type hmem => .of_eq_some (ValueType.ofDocument?_toDocument (hreturnType type hmem))
  change Reads (Document.fields? _ _ >>= _) _ _
  rw [toDocument, Document.fields?_record rfl (by decide)]
  change Reads (some name >>= fun name => some symbol >>= fun symbol =>
    (Document.ofList ValueType.toDocument parameters).list? ValueType.ofDocument? >>= fun parameters =>
    (Document.ofList ParameterBinding.toDocument bindings).list? ParameterBinding.ofDocument? >>= fun bindings =>
    (Document.ofOption ValueType.toDocument returnType).option? ValueType.ofDocument? >>= fun returnType =>
    (Document.ofList BufferDeclaration.toDocument buffers).list? BufferDeclaration.ofDocument? >>= fun buffers =>
    instructions? (blockDocuments body) >>= fun body =>
    (Document.ofOption Operand.toDocument result).option? Operand.ofDocument? >>= fun result =>
      some (mk name symbol parameters bindings returnType buffers body result)) _ _
  refine Reads.congr (.after rfl (.after rfl
    (.after (Document.list?_ofList fun type hmem => ValueType.ofDocument?_toDocument (hparameters type hmem))
    (.after (Document.list?_ofList fun binding hmem => ParameterBinding.ofDocument?_toDocument (hbindings binding hmem))
    (.bind (Reads.option (fun _ => Document.noConfusion) hreturnType)
    (.after (Document.list?_ofList fun buffer hmem => BufferDeclaration.ofDocument?_toDocument (hbuffers buffer hmem))
    (.bind (blockReads body hbody)
    (.bind (Reads.option Operand.toDocument_ne_null fun operand hmem => Operand.reads (hresult operand hmem))
    (.pure (mk name symbol parameters bindings returnType buffers body result)))))))))) ?_
  simp only [immediates, List.forall_mem_append, List.forall_mem_flatMap, Option.mem_toList, Option.mem_def,
    implies_true, true_and, and_true]

end EmittedFunction

namespace EmittedModule

/-- The machine words of a module: the numbers of registers, buffers and
    parameters, the extents and increments of layouts, the extents of loops and
    the lengths of buffers. -/
def words (program : EmittedModule) : List Nat := program.functions.flatMap EmittedFunction.words

/-- The immediates of a module, wherever they stand: in bodies, and in what
    functions return. -/
def immediates (program : EmittedModule) : List Numeric :=
  program.functions.flatMap EmittedFunction.immediates

/-- A module is read back if its immediates can be written and its written form
    does not nest too deeply. Both conditions are needed. -/
theorem reads {program : EmittedModule} (h : ∀ n ∈ program.words, n < Word.bound) :
    Reads program.reread? program (program.toDocument.depth ≤ Document.depthLimit ∧
      ∀ x ∈ program.immediates, x.isUnwritable = false) := by
  have hfunctions : ∀ function ∈ program.functions, Reads (EmittedFunction.ofDocument? function.toDocument)
      function (∀ x ∈ function.immediates, x.isUnwritable = false) := fun function hmem =>
    EmittedFunction.reads fun n hn => h n (List.mem_flatMap_of_mem hmem hn)
  have hfields : program.toDocument.fields? [("name", false), ("functions", false)] =
      some [.text program.name, .ofList EmittedFunction.toDocument program.functions] :=
    Document.fields?_record rfl (by decide)
  change Reads (guard _ >>= fun _ => program.toDocument.fields? _ >>= _) _ _
  rw [hfields]
  refine Reads.congr (.bind .of_guard (.after rfl (.after rfl (.bind (Reads.list hfunctions)
    (.pure (mk program.name program.functions)))))) ?_
  simp only [immediates, List.forall_mem_flatMap, and_true]

/-- Reading what was written of a module yields the module, bit for bit, exactly
    if none of its immediates is infinite or not a number and it does not nest
    too deeply. Otherwise it yields nothing, so never another module. -/
theorem reread?_eq_some_iff (program : EmittedModule) (hwords : ∀ n ∈ program.words, n < Word.bound) :
    (program.reread? = some program ↔
      (∀ x ∈ program.immediates, x.isUnwritable = false) ∧
        program.toDocument.depth ≤ Document.depthLimit) ∧
    (program.reread? = some program ∨ program.reread? = none) := by
  have hreads := reads hwords
  refine ⟨hreads.eq_some_iff.trans and_comm, ?_⟩
  by_cases hsame : program.reread? = some program
  · exact .inl hsame
  · exact .inr (hreads.eq_none hsame)

/-- The module of one function that adds an immediate to each element of a
    buffer and hands the buffer and the immediate on. -/
def adding (x : Numeric) : EmittedModule :=
  ⟨"m", [⟨"f", "m_f", [.pointer x.dtype ⟨[2], [1]⟩], [.buffer ⟨0⟩], some (.scalar x.dtype),
    [⟨⟨0⟩, x.dtype, 2, .parameter 0⟩, ⟨⟨1⟩, x.dtype, 1, .own⟩],
    [.loop ⟨0⟩ 2 [.load ⟨1⟩ ⟨0⟩ (.register ⟨0⟩), .binary ⟨2⟩ .add (.register ⟨1⟩) (.constant x),
      .store ⟨0⟩ (.register ⟨0⟩) (.register ⟨2⟩)],
      .call "sum" [.buffer ⟨0⟩ (.constant (.i64 0)), .scalar (.constant x)] (some ⟨3⟩),
      .call "done" [] none], some (.register ⟨3⟩)⟩]⟩

/-- With one and a half in it the module is read back; with infinity in it, it
    is not. -/
theorem reread?_adding :
    (∀ n ∈ (adding (.f64 0x3FF8000000000000)).words, n < Word.bound) ∧
    (adding (.f64 0x3FF8000000000000)).reread? = some (adding (.f64 0x3FF8000000000000)) ∧
    (∀ n ∈ (adding (.f32 0x7F800000)).words, n < Word.bound) ∧
    (adding (.f32 0x7F800000)).reread? = none := by
  have hfinite : ∀ n ∈ (adding (.f64 0x3FF8000000000000)).words, n < Word.bound := by decide +kernel
  have hinfinite : ∀ n ∈ (adding (.f32 0x7F800000)).words, n < Word.bound := by decide +kernel
  refine ⟨hfinite, (reread?_eq_some_iff _ hfinite).1.mpr (by decide +kernel), hinfinite, ?_⟩
  obtain ⟨hiff, hor⟩ := reread?_eq_some_iff _ hinfinite
  exact hor.resolve_left fun hsame => absurd (hiff.mp hsame).1 (by decide +kernel)

/-- Modules whose loops do not lie around each other more than thirty-eight
    times never nest too deeply. -/
theorem depth_le_depthLimit {program : EmittedModule}
    (h : ∀ function ∈ program.functions, blockNesting function.body ≤ 38) :
    program.toDocument.depth ≤ Document.depthLimit :=
  Nat.le_trans (depth_toDocument_le h) (by decide)

/-- The words in nested empty loops are their registers and extents, which are
    small. -/
theorem lt_of_mem_blockWords_nestedLoops {count register n : Nat}
    (h : n ∈ blockWords (nestedLoops count register)) : n < register + count := by
  induction count generalizing register with
  | zero => simp [nestedLoops, blockWords] at h
  | succ count ih =>
    simp only [nestedLoops, blockWords, Instruction.words, List.append_nil, List.mem_cons] at h
    obtain rfl | rfl | h := h
    · omega
    · omega
    · have hlt := ih h
      omega

theorem blockImmediates_nestedLoops (count register : Nat) :
    blockImmediates (nestedLoops count register) = [] := by
  induction count generalizing register with
  | zero => rfl
  | succ count ih => simp [nestedLoops, blockImmediates, Instruction.immediates, ih]

/-- So a module of such loops satisfies all conditions on words, and only its
    depth decides whether it is read back. -/
theorem words_ofNestedLoops_lt {count n : Nat} (h : n ∈ (ofNestedLoops count).words) : n < count := by
  simp only [words, ofNestedLoops, EmittedFunction.words, List.flatMap_cons, List.flatMap_nil,
    Option.toList_none, List.nil_append, List.append_nil] at h
  have hlt := lt_of_mem_blockWords_nestedLoops h
  omega

theorem immediates_ofNestedLoops (count : Nat) : (ofNestedLoops count).immediates = [] := by
  simp [immediates, ofNestedLoops, EmittedFunction.immediates, blockImmediates_nestedLoops]

/-- Empty loops around each other are read back as long as they are at most
    forty-one. -/
theorem reread?_ofNestedLoops (count : Nat) : (ofNestedLoops count).reread? =
    if count ≤ 41 then some (ofNestedLoops count) else none := by
  have hdepth : (ofNestedLoops count).toDocument.depth ≤ Document.depthLimit ↔ count ≤ 41 := by
    rw [depth_ofNestedLoops, Document.depthLimit]
    omega
  by_cases hcount : count ≤ 41
  · have hwords : ∀ n ∈ (ofNestedLoops count).words, n < Word.bound := fun n hn =>
      Nat.lt_trans (words_ofNestedLoops_lt hn) (Nat.lt_of_le_of_lt hcount (by decide))
    rw [if_pos hcount]
    exact (reads hwords).eq_some ⟨hdepth.mpr hcount, by simp [immediates_ofNestedLoops]⟩
  · rw [if_neg hcount, reread?, ofDocument?, guard, if_neg (hdepth.not.mpr hcount)]
    rfl

/-- Forty-two are one too many, though there is nothing in them that could not
    be written. -/
theorem reread?_fortyTwo_loops :
    (∀ n ∈ (ofNestedLoops 42).words, n < Word.bound) ∧ (ofNestedLoops 42).immediates = [] ∧
      (ofNestedLoops 42).reread? = none :=
  ⟨by decide +kernel, immediates_ofNestedLoops 42, reread?_ofNestedLoops 42⟩

end EmittedModule

end StagedArrays
