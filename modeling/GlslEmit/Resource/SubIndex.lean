/-
# Packed sub-indices

A resource in a shared table is addressed by a sub-index of 16 bits. Two sub-indices share one
32-bit field of the push-constant block: an even index lies in the low half of its field and the
odd index after it in the high half.

* `SubIndexPlace.of` says where an index lies, `SubIndexPlace.text` is the expression that reads
  it, and `SubIndexPlace.read` is the value of that expression;
* `subIndexFields` counts the fields that hold all indices up to a largest one.
-/
namespace GlslEmit

/-- The name of the push-constant block. -/
def pushConstantBlock : String := "_BINDING_INDICES_"

/-- The name under which shaders reach the fields of the push-constant block. -/
def pushConstantInstance : String := "_bidx_"

/-- The half of a field. -/
inductive FieldHalf where
  | low
  | high
  deriving DecidableEq

/-- Where a sub-index lies: the field and the half of it. -/
structure SubIndexPlace where
  field : UInt32
  half : FieldHalf
  deriving DecidableEq

/-- The name of a field of the push-constant block. -/
def subIndexField (field : UInt32) : String := "index" ++ toString field

namespace SubIndexPlace

/-- The place of a sub-index. -/
def of (index : UInt32) : SubIndexPlace :=
  ⟨index / 2, if index % 2 = 0 then .low else .high⟩

/-- The expression that reads a sub-index from its place. -/
def text (p : SubIndexPlace) : String :=
  let field := pushConstantInstance ++ "." ++ subIndexField p.field
  match p.half with
  | .low => "(" ++ field ++ " & 0xFFFF)"
  | .high => "(" ++ field ++ " >> 16)"

/-- What the expression yields when the fields hold the given words. -/
def read (p : SubIndexPlace) (words : UInt32 → UInt32) : UInt32 :=
  match p.half with
  | .low => words p.field &&& 0xFFFF
  | .high => words p.field >>> 16

end SubIndexPlace

/-- The name of the local variable that holds a sub-index. -/
def subIndexLocal (index : UInt32) : String := "_bidx" ++ toString index ++ "_"

/-- The number of fields that hold the sub-indices from 0 to `max`. -/
def subIndexFields (max : UInt32) : UInt32 := max / 2 + 1

end GlslEmit
