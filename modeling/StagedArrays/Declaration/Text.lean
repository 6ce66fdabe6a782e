import StagedArrays.Declaration
import StagedArrays.Text.Quoted

namespace StagedArrays

namespace Layout

/-- A layout in full. -/
def text (layout : Layout) : String :=
  Text.record "Layout" [("extents", Text.listed (layout.extents.map toString)),
    ("increments", Text.listed (layout.increments.map toString))]

end Layout

namespace ValueType

/-- A value type in full. -/
def text (type : ValueType) : String :=
  Text.record "ValueType" [("dtype", type.dtype.tag), ("pointer_level", toString type.pointerLevel.toNat),
    ("layout", type.layout.text)]

end ValueType

namespace FunctionDeclaration

/-- A declaration in full; of the host definition, whether there is one. -/
def text (function : FunctionDeclaration) : String :=
  Text.record "FunctionDeclaration" [
    ("name", Text.quoted function.name),
    ("return_type",
      match function.returnType with
      | some type => "Some(" ++ type.text ++ ")"
      | none => "None"),
    ("parameters", Text.listed (function.parameters.map ValueType.text)),
    ("decoration", function.decoration.name),
    ("defined", if function.hostDefinition.isSome then "true" else "false")]

end FunctionDeclaration

end StagedArrays
