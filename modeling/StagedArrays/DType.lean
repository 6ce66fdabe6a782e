namespace StagedArrays

/-- Element types: two wide and two half floats, two integers. All elements of a
    piece of storage are of one of them. -/
inductive DType where
  | f64
  | f32
  | bf16
  | f16
  | i64
  | i32
  deriving DecidableEq, Inhabited

namespace DType

/-- Every element type, in declaration order. A name is looked up by going
    through them. -/
def all : List DType := [f64, f32, bf16, f16, i64, i32]

/-- Bytes that one element occupies. Budgets and the room for storage are
    counted in them. -/
def size : DType → Nat
  | f64 | i64 => 8
  | f32 | i32 => 4
  | bf16 | f16 => 2

/-- The name that messages show. Written programs use a shorter one. -/
def name : DType → String
  | f64 => "Float64"
  | f32 => "Float32"
  | bf16 => "BFloat16"
  | f16 => "Float16"
  | i64 => "Int64"
  | i32 => "Int32"

/-- The short name that written programs use. No two element types share one, so
    that it can be read back. -/
def tag : DType → String
  | f64 => "F64"
  | f32 => "F32"
  | bf16 => "BF16"
  | f16 => "F16"
  | i64 => "I64"
  | i32 => "I32"

/-- The element type with a given short name; none for any other text, the long
    names included. -/
def ofTag? (text : String) : Option DType :=
  all.find? fun dtype => dtype.tag == text

theorem ofTag?_tag (dtype : DType) : ofTag? dtype.tag = some dtype := by
  cases dtype <;> decide

end DType

end StagedArrays
