import StagedArrays.Value

namespace StagedArrays

/-- A value of rank 0. Backed by storage it is written through; an immediate or
    a register is replaced instead. -/
structure Scalar where
  value : Value
  rank_eq : value.rank = 0

/-- A value of rank 1. The rank is checked once, where the vector is made of a
    value. -/
structure Vector where
  value : Value
  rank_eq : value.rank = 1

/-- A value of rank 2, indexed by row and column. The rank is checked once, as
    that of a vector is. -/
structure Matrix where
  value : Value
  rank_eq : value.rank = 2

namespace Scalar

def ofValue (value : Value) : Except LayoutError Scalar :=
  if h : value.rank = 0 then .ok ⟨value, h⟩ else .error (.rankMismatch 0 value.rank)

def ofNumeric (x : Numeric) : Scalar := ⟨.constant x, rfl⟩

/-- The 64-bit integer immediate of a coordinate. Loops on the host hand these
    to their bodies. -/
def ofIndex (index : Nat) : Scalar := ofNumeric (.ofIndex index)

def ofRegister (dtype : DType) (id : RegisterId) : Scalar := ⟨.register dtype id, rfl⟩

def dtype (s : Scalar) : DType := s.value.dtype

end Scalar

namespace Vector

def ofValue (value : Value) : Except LayoutError Vector :=
  if h : value.rank = 1 then .ok ⟨value, h⟩ else .error (.rankMismatch 1 value.rank)

def dtype (v : Vector) : DType := v.value.dtype

def size (v : Vector) : Except Fault Nat := v.value.size

end Vector

namespace Matrix

def ofValue (value : Value) : Except LayoutError Matrix :=
  if h : value.rank = 2 then .ok ⟨value, h⟩ else .error (.rankMismatch 2 value.rank)

def dtype (m : Matrix) : DType := m.value.dtype

def size (m : Matrix) : Except Fault Nat := m.value.size

def rows (m : Matrix) : Nat :=
  m.value.layout.extents.get ⟨0, by
    have := m.rank_eq
    simp only [Value.rank, Layout.rank] at this
    omega⟩

def columns (m : Matrix) : Nat :=
  m.value.layout.extents.get ⟨1, by
    have := m.rank_eq
    simp only [Value.rank, Layout.rank] at this
    omega⟩

end Matrix

end StagedArrays
