/-
# Shapes of values, texels and images

The leaves of a type description: the scalar kind of a component, the shape of a numeric value,
the storage of one texel, and the dimensionality of an image.

* `NumericType.isMatrix`: a shape with more than one column is a matrix;
* `describe` writes a shape or a texel for messages, `name` a kind or a dimensionality.
-/
namespace GlslEmit

/-- What a single component holds. -/
inductive ScalarKind where
  | boolean
  | signed
  | unsigned
  | float
  deriving DecidableEq

/-- The name of a scalar kind in descriptions. -/
def ScalarKind.name : ScalarKind → String
  | .boolean => "Boolean"
  | .signed => "Signed"
  | .unsigned => "Unsigned"
  | .float => "Float"

/-- The dimensionality of an image or sampler. -/
inductive Dims where
  | d1
  | d2
  | d3
  | d1Array
  | d2Array
  | cube
  | cubeArray
  /-- No dimensionality: plain samplers and texel buffers. -/
  | none
  /-- A sampler that compares depths. -/
  | shadow
  deriving DecidableEq

/-- The name of a dimensionality in descriptions. -/
def Dims.name : Dims → String
  | .d1 => "1D"
  | .d2 => "2D"
  | .d3 => "3D"
  | .d1Array => "1DArray"
  | .d2Array => "2DArray"
  | .cube => "Cube"
  | .cubeArray => "CubeArray"
  | .none => "None"
  | .shadow => "Shadow"

/-- The shape of a scalar, a vector of `rows` components, or a matrix of `cols` columns with
`rows` components each. -/
structure NumericType where
  base : ScalarKind
  /-- The size of one component, in bytes. -/
  size : UInt8
  rows : UInt8
  cols : UInt8
  deriving DecidableEq

namespace NumericType

/-- A scalar of four bytes. -/
def scalar (base : ScalarKind) : NumericType := ⟨base, 4, 1, 1⟩

/-- A vector of four-byte components. -/
def vector (base : ScalarKind) (rows : UInt8) : NumericType := ⟨base, 4, rows, 1⟩

/-- A matrix of four-byte floats. -/
def matrix (cols rows : UInt8) : NumericType := ⟨.float, 4, rows, cols⟩

/-- Whether the shape has more than one column. -/
def isMatrix (n : NumericType) : Bool := n.cols > 1

/-- The shape as it stands in messages, such as `Float[4:3x1]` for a vector of three floats. -/
def describe (n : NumericType) : String :=
  n.base.name ++ "[" ++ toString n.size ++ ":" ++ toString n.rows ++ "x" ++ toString n.cols ++ "]"

end NumericType

/-- How one texel of an image or texel buffer is stored. -/
structure Texel where
  base : ScalarKind
  /-- The size of one component, in bytes. -/
  size : UInt8
  components : UInt8
  deriving DecidableEq

/-- The texel as it stands in messages, such as `Float[4]x4`. -/
def Texel.describe (t : Texel) : String :=
  t.base.name ++ "[" ++ toString t.size ++ "]x" ++ toString t.components

end GlslEmit
