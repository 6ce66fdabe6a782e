import StagedArrays.Code.Instruction

namespace StagedArrays

/-- A written tree of data. Integers and finite floats are exact; a float that
    is not finite has no written form but `null`. -/
inductive Document where
  | null
  | bool (value : Bool)
  | int (value : Int)
  | double (word : UInt64)
  | single (word : UInt32)
  | text (value : String)
  | list (items : List Document)
  | record (fields : List (String × Document))
  deriving Inhabited

namespace Document

/-- A case of a sum type with its content: a record whose only field is named
    for the case. -/
def variant (tag : String) (content : Document) : Document := .record [(tag, content)]

/-- The case of a sum type and its content. A case without content may be its
    name alone. -/
def variant? : Document → Option (String × Document)
  | .record [(tag, content)] => some (tag, content)
  | .text tag => some (tag, .null)
  | _ => none

def ofNat (n : Nat) : Document := .int n

def ofOption {α : Type} (write : α → Document) : Option α → Document
  | none => .null
  | some x => write x

def ofList {α : Type} (write : α → Document) (items : List α) : Document := .list (items.map write)

/-- The field of a name; the first, if there are several. Fields of other names
    are passed over. -/
def field? (fields : List (String × Document)) (name : String) : Option Document :=
  (fields.find? fun (other, _) => other == name).map Prod.snd

/-- The contents of a record in the order of its names, which may also be
    written as a list. An optional field that a record leaves out counts as
    `null`. -/
def fields? (names : List (String × Bool)) : Document → Option (List Document)
  | .record fields => names.mapM fun (name, optional) =>
    match field? fields name with
    | some content => some content
    | none => if optional then some .null else none
  | .list items => if items.length = names.length then some items else none
  | _ => none

/-- An integer of a range. One outside is not read at all, rather than
    wrapped. -/
def int? (low high : Int) : Document → Option Int
  | .int value => if low ≤ value ∧ value ≤ high then some value else none
  | _ => none

/-- An unsigned integer of a number of bits. One that needs more bits is not
    read. -/
def nat? (bits : Nat) (document : Document) : Option Nat :=
  (document.int? 0 (((1 <<< bits : Nat) : Int) - 1)).map Int.toNat

def text? : Document → Option String
  | .text value => some value
  | _ => none

def list? {α : Type} (read : Document → Option α) : Document → Option (List α)
  | .list items => items.mapM read
  | _ => none

/-- What is not `null` has to be readable. That something is absent is thus told
    apart from what is malformed. -/
def option? {α : Type} (read : Document → Option α) : Document → Option (Option α)
  | .null => some none
  | document => (read document).map some

mutual

/-- How many lists and records lie around each other, at most. Text and numbers
    add nothing to it. -/
def depth : Document → Nat
  | .list items => itemsDepth items + 1
  | .record fields => fieldsDepth fields + 1
  | _ => 0

/-- The depth of the deepest of several documents. -/
def itemsDepth : List Document → Nat
  | [] => 0
  | item :: rest => max item.depth (itemsDepth rest)

/-- The depth of the deepest content of several fields. -/
def fieldsDepth : List (String × Document) → Nat
  | [] => 0
  | (_, content) :: rest => max content.depth (fieldsDepth rest)

end

/-- No document is read that is nested deeper than this. Writing knows no such
    limit. -/
def depthLimit : Nat := 127

/-- A double, from any number. Integers are rounded to the nearest one. -/
def double? : Document → Option UInt64
  | .double word => some word
  | .single word => some (Numeric.doubleOfSingle word)
  | .int value => some (.ofNat (FloatFormat.double.encode (.ofInt value)))
  | _ => none

/-- A single, from any number. It is rounded to the nearest one, a double as
    well as an integer. -/
def single? : Document → Option UInt32
  | .single word => some word
  | .double word => some (Numeric.singleOfDouble word)
  | .int value => some (.ofNat (FloatFormat.single.encode (.ofInt value)))
  | _ => none

end Document

namespace Numeric

/-- The written form of a number. A single or double that is not finite is
    written as nothing. -/
def toDocument : Numeric → Document
  | f64 word => .variant "F64" (if FloatFormat.double.isFinite word.toNat then .double word else .null)
  | f32 word => .variant "F32" (if FloatFormat.single.isFinite word.toNat then .single word else .null)
  | bf16 word => .variant "BF16" (.ofNat word.toNat)
  | f16 word => .variant "F16" (.ofNat word.toNat)
  | i64 value => .variant "I64" (.int value.toInt)
  | i32 value => .variant "I32" (.int value.toInt)

def ofDocument? (document : Document) : Option Numeric := do
  let (tag, content) ← document.variant?
  match ← DType.ofTag? tag with
  | .f64 => return f64 (← content.double?)
  | .f32 => return f32 (← content.single?)
  | .bf16 => return bf16 (.ofNat (← content.nat? 16))
  | .f16 => return f16 (.ofNat (← content.nat? 16))
  | .i64 => return i64 (.ofInt (← content.int? Int64.minValue.toInt Int64.maxValue.toInt))
  | .i32 => return i32 (.ofInt (← content.int? Int32.minValue.toInt Int32.maxValue.toInt))

end Numeric

namespace DType

def toDocument (dtype : DType) : Document := .text dtype.tag

def ofDocument? (document : Document) : Option DType := do
  match ← document.variant? with
  | (tag, .null) => ofTag? tag
  | _ => none

end DType

namespace BinaryOp

def toDocument (op : BinaryOp) : Document := .text op.name

def ofDocument? (document : Document) : Option BinaryOp := do
  match ← document.variant? with
  | (name, .null) => ofName? name
  | _ => none

end BinaryOp

namespace Document

/-- A numbered handle: a record whose only field is the number. -/
def ofHandle (index : Nat) : Document := .record [("inner", .ofNat index)]

/-- The number of a register or buffer that a document stands for. It has to fit
    a machine word. -/
def handle? (document : Document) : Option Nat := do
  match ← document.fields? [("inner", false)] with
  | [index] => index.nat? 64
  | _ => none

end Document

namespace RegisterId

def toDocument (id : RegisterId) : Document := .ofHandle id.index

def ofDocument? (document : Document) : Option RegisterId := document.handle?.map .mk

end RegisterId

namespace BufferId

def toDocument (id : BufferId) : Document := .ofHandle id.index

def ofDocument? (document : Document) : Option BufferId := document.handle?.map .mk

end BufferId

namespace Layout

def toDocument (layout : Layout) : Document :=
  .record [("extents", .ofList .ofNat layout.extents), ("increments", .ofList .ofNat layout.increments)]

def ofDocument? (document : Document) : Option Layout := do
  match ← document.fields? [("extents", false), ("increments", false)] with
  | [extents, increments] =>
    return ⟨← extents.list? (·.nat? 64), ← increments.list? (·.nat? 64)⟩
  | _ => none

end Layout

namespace ValueType

def toDocument (type : ValueType) : Document :=
  .record [("dtype", type.dtype.toDocument), ("pointer_level", .ofNat type.pointerLevel.toNat),
    ("layout", type.layout.toDocument)]

def ofDocument? (document : Document) : Option ValueType := do
  match ← document.fields? [("dtype", false), ("pointer_level", false), ("layout", false)] with
  | [dtype, level, layout] =>
    return ⟨← DType.ofDocument? dtype, .ofNat (← level.nat? 8), ← Layout.ofDocument? layout⟩
  | _ => none

end ValueType

namespace Operand

def toDocument : Operand → Document
  | constant x => .variant "Constant" x.toDocument
  | register id => .variant "Register" id.toDocument

def ofDocument? (document : Document) : Option Operand := do
  match ← document.variant? with
  | ("Constant", content) => return constant (← Numeric.ofDocument? content)
  | ("Register", content) => return register (← RegisterId.ofDocument? content)
  | _ => none

end Operand

namespace CallArgument

def toDocument : CallArgument → Document
  | scalar operand => .variant "Scalar" operand.toDocument
  | buffer id offset =>
    .variant "Buffer" (.record [("buffer", id.toDocument), ("offset", offset.toDocument)])

def ofDocument? (document : Document) : Option CallArgument := do
  match ← document.variant? with
  | ("Scalar", content) => return scalar (← Operand.ofDocument? content)
  | ("Buffer", content) =>
    match ← content.fields? [("buffer", false), ("offset", false)] with
    | [id, offset] => return buffer (← BufferId.ofDocument? id) (← Operand.ofDocument? offset)
    | _ => none
  | _ => none

end CallArgument

namespace BufferSource

def toDocument : BufferSource → Document
  | parameter index => .variant "Parameter" (.ofNat index)
  | own => .text "Local"

def ofDocument? (document : Document) : Option BufferSource := do
  match ← document.variant? with
  | ("Parameter", content) => return parameter (← content.nat? 64)
  | ("Local", .null) => return own
  | _ => none

end BufferSource

namespace BufferDeclaration

def toDocument (declaration : BufferDeclaration) : Document :=
  .record [("id", declaration.id.toDocument), ("dtype", declaration.dtype.toDocument),
    ("len", .ofNat declaration.length), ("source", declaration.source.toDocument)]

def ofDocument? (document : Document) : Option BufferDeclaration := do
  match ← document.fields? [("id", false), ("dtype", false), ("len", false), ("source", false)] with
  | [id, dtype, length, source] =>
    return ⟨← BufferId.ofDocument? id, ← DType.ofDocument? dtype, ← length.nat? 64,
      ← BufferSource.ofDocument? source⟩
  | _ => none

end BufferDeclaration

namespace ParameterBinding

def toDocument : ParameterBinding → Document
  | buffer id => .variant "Buffer" id.toDocument
  | register id => .variant "Register" id.toDocument

def ofDocument? (document : Document) : Option ParameterBinding := do
  match ← document.variant? with
  | ("Buffer", content) => return buffer (← BufferId.ofDocument? content)
  | ("Register", content) => return register (← RegisterId.ofDocument? content)
  | _ => none

end ParameterBinding

mutual

/-- The written form of an instruction: its name, and a record of its fields. A
    loop has its body among them. -/
def Instruction.toDocument : Instruction → Document
  | .binary output op a b => .variant "Binary" (.record [("output", output.toDocument),
      ("op", op.toDocument), ("a", a.toDocument), ("b", b.toDocument)])
  | .load output buffer offset => .variant "Load" (.record [("output", output.toDocument),
      ("buffer", buffer.toDocument), ("offset", offset.toDocument)])
  | .store buffer offset value => .variant "Store" (.record [("buffer", buffer.toDocument),
      ("offset", offset.toDocument), ("value", value.toDocument)])
  | .loop induction extent body => .variant "Loop" (.record [("induction", induction.toDocument),
      ("extent", .ofNat extent), ("body", .list (blockDocuments body))])
  | .call symbol args output => .variant "Call" (.record [("symbol", .text symbol),
      ("args", .ofList CallArgument.toDocument args), ("output", .ofOption RegisterId.toDocument output)])

/-- The instructions of a block, each written. They are read back one by one. -/
def blockDocuments : List Instruction → List Document
  | [] => []
  | instruction :: rest => instruction.toDocument :: blockDocuments rest

end

namespace Instruction

/-- An instruction that holds no others. It is read from the name of its case
    and its fields. -/
def simple? (tag : String) (content : Document) : Option Instruction := do
  match tag with
  | "Binary" =>
    match ← content.fields? [("output", false), ("op", false), ("a", false), ("b", false)] with
    | [output, op, a, b] =>
      return binary (← RegisterId.ofDocument? output) (← BinaryOp.ofDocument? op)
        (← Operand.ofDocument? a) (← Operand.ofDocument? b)
    | _ => none
  | "Load" =>
    match ← content.fields? [("output", false), ("buffer", false), ("offset", false)] with
    | [output, buffer, offset] =>
      return load (← RegisterId.ofDocument? output) (← BufferId.ofDocument? buffer)
        (← Operand.ofDocument? offset)
    | _ => none
  | "Store" =>
    match ← content.fields? [("buffer", false), ("offset", false), ("value", false)] with
    | [buffer, offset, value] =>
      return store (← BufferId.ofDocument? buffer) (← Operand.ofDocument? offset)
        (← Operand.ofDocument? value)
    | _ => none
  | "Call" =>
    match ← content.fields? [("symbol", false), ("args", false), ("output", true)] with
    | [symbol, args, output] =>
      return call (← symbol.text?) (← args.list? CallArgument.ofDocument?)
        (← output.option? RegisterId.ofDocument?)
    | _ => none
  | _ => none

end Instruction

mutual

/-- Reads an instruction. Only a loop holds others, in the field `body`, and
    reading it goes on there. -/
def Instruction.ofDocument? : Document → Option Instruction
  | .record [("Loop", content)] => do
    match ← content.fields? [("induction", false), ("extent", false), ("body", false)] with
    | [induction, extent, _] =>
      return .loop (← RegisterId.ofDocument? induction) (← extent.nat? 64) (← loopBody? content)
    | _ => none
  | .record [(tag, content)] => Instruction.simple? tag content
  | _ => none

/-- Reads the body of a loop. The fields of a loop may be given by name or in
    their order. -/
def loopBody? : Document → Option (List Instruction)
  | .record fields => bodyField? fields
  | .list [_, _, body] => block? body
  | _ => none

/-- Reads the field `body`. Others before it are passed over here, and read
    apart from it. -/
def bodyField? : List (String × Document) → Option (List Instruction)
  | [] => none
  | (name, content) :: rest => if name == "body" then block? content else bodyField? rest

/-- Reads a list of instructions. Anything but a list is no block. -/
def block? : Document → Option (List Instruction)
  | .list items => instructions? items
  | _ => none

/-- Reads instructions, each from its own document. One that cannot be read
    makes the block unreadable. -/
def instructions? : List Document → Option (List Instruction)
  | [] => some []
  | item :: rest => do return (← Instruction.ofDocument? item) :: (← instructions? rest)

end

namespace EmittedFunction

def toDocument (function : EmittedFunction) : Document :=
  .record [("name", .text function.name), ("symbol", .text function.symbol),
    ("parameters", .ofList ValueType.toDocument function.parameters),
    ("bindings", .ofList ParameterBinding.toDocument function.bindings),
    ("return_type", .ofOption ValueType.toDocument function.returnType),
    ("buffers", .ofList BufferDeclaration.toDocument function.buffers),
    ("body", .list (blockDocuments function.body)),
    ("result", .ofOption Operand.toDocument function.result)]

def ofDocument? (document : Document) : Option EmittedFunction := do
  match ← document.fields? [("name", false), ("symbol", false), ("parameters", false),
      ("bindings", false), ("return_type", true), ("buffers", false), ("body", false),
      ("result", true)] with
  | [name, symbol, parameters, bindings, returnType, buffers, body, result] =>
    return {
      name := ← name.text?
      symbol := ← symbol.text?
      parameters := ← parameters.list? ValueType.ofDocument?
      bindings := ← bindings.list? ParameterBinding.ofDocument?
      returnType := ← returnType.option? ValueType.ofDocument?
      buffers := ← buffers.list? BufferDeclaration.ofDocument?
      body := ← block? body
      result := ← result.option? Operand.ofDocument? }
  | _ => none

end EmittedFunction

namespace EmittedModule

/-- The written form of a module: its name and its functions in the order they
    were recorded in. -/
def toDocument (program : EmittedModule) : Document :=
  .record [("name", .text program.name),
    ("functions", .ofList EmittedFunction.toDocument program.functions)]

/-- The module that a document is the written form of, if it is one and not
    nested too deeply. -/
def ofDocument? (document : Document) : Option EmittedModule := do
  guard (document.depth ≤ Document.depthLimit)
  match ← document.fields? [("name", false), ("functions", false)] with
  | [name, functions] => return ⟨← name.text?, ← functions.list? EmittedFunction.ofDocument?⟩
  | _ => none

/-- The written form of a function with the symbols it calls, sorted, and the
    bytes of storage it declares. -/
def functionReport (function : EmittedFunction) : Except Fault Document := do
  let bytes ← function.localStorageBytes
  let symbols := function.referencedSymbols.mergeSort (fun a b => a ≤ b)
  match function.toDocument with
  | .record fields =>
    return .record (fields ++
      [("referenced_symbols", .ofList .text symbols), ("local_storage_bytes", .ofNat bytes)])
  | document => return document

/-- The written form of a module with a report of each function. Its sizes may
    overflow, so that there may be no report. -/
def report (program : EmittedModule) : Except Fault Document := do
  let functions ← program.functions.mapM functionReport
  return .record [("name", .text program.name), ("functions", .list functions)]

/-- What reading the written form yields. It is the module itself or nothing, as
    is shown later. -/
def reread? (program : EmittedModule) : Option EmittedModule := ofDocument? program.toDocument

end EmittedModule

end StagedArrays
