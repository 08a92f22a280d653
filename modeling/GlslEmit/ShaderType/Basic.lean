/-
# Shader types

A shader type is a value type or a resource type. Some resource types start out incomplete: an
image without a texel, a buffer without a body. They are completed by `withTexel?` and
`withBody?`, which refuse every kind that takes no such payload.

* `ShaderType.kind` is the tag of a type, `ShaderType.isComplete` says that no payload is missing;
* `isComplete_of_withTexel?` and `isComplete_of_withBody?`: a completed type is complete.
-/
import GlslEmit.ShaderType.Shape

namespace GlslEmit

/-- A named member of a struct; its array length is 1 when the member is no array. -/
structure Member (τ : Type) where
  name : String
  type : τ
  arraySize : UInt32

/-- A struct: a name and its members in order, each of some type `τ`. -/
structure Struct (τ : Type) where
  name : String
  members : List (Member τ)

/-- The three kinds of buffer. -/
inductive BufferKind where
  | uniform
  | readOnly
  | readWrite
  deriving DecidableEq

/-- How a shader may use a texel buffer. -/
inductive TexelAccess where
  | readOnly
  | readWrite
  deriving DecidableEq

/-- A value type or a resource type. -/
inductive ShaderType where
  | void
  | numeric (shape : NumericType)
  /-- Sampler state on its own. -/
  | sampler (dims : Dims)
  /-- An image combined with its sampler. -/
  | boundSampler (dims : Dims)
  /-- A sampled image. -/
  | texture (dims : Dims) (texel : Texel)
  /-- A storage image; without a texel it is incomplete. -/
  | image (dims : Dims) (texel : Option Texel)
  /-- A buffer; without a body it is incomplete. -/
  | buffer (kind : BufferKind) (body : Option ShaderType)
  /-- A texel buffer; without a texel it is incomplete. -/
  | texels (access : TexelAccess) (texel : Option Texel)
  /-- An input attachment, always two-dimensional. -/
  | subpassInput (texel : Texel)
  | struct (s : Struct ShaderType)

/-- A member of a struct type. -/
abbrev StructMember := Member ShaderType

/-- A struct type: a name and its members in order. -/
abbrev StructType := Struct ShaderType

/-- The tag of a shader type; a numeric type is tagged by its scalar kind. -/
inductive TypeKind where
  | void
  | boolean
  | signedInt
  | unsignedInt
  | float
  | sampler
  | boundSampler
  | texture
  | image
  | buffer (kind : BufferKind)
  | texels (access : TexelAccess)
  | subpassInput
  | struct
  deriving DecidableEq

/-- The name of a kind in messages. -/
def TypeKind.name : TypeKind → String
  | .void => "Void"
  | .boolean => "Boolean"
  | .signedInt => "SignedInt"
  | .unsignedInt => "UnsignedInt"
  | .float => "Float"
  | .sampler => "Sampler"
  | .boundSampler => "BoundSampler"
  | .texture => "Texture"
  | .image => "Image"
  | .buffer .uniform => "Uniform"
  | .buffer .readOnly => "ReadOnlyBuffer"
  | .buffer .readWrite => "ReadWriteBuffer"
  | .texels .readOnly => "ReadOnlyTexels"
  | .texels .readWrite => "ReadWriteTexels"
  | .subpassInput => "SubpassInput"
  | .struct => "Struct"

/-- The kind of a numeric type with components of the given scalar kind. -/
def ScalarKind.typeKind : ScalarKind → TypeKind
  | .boolean => .boolean
  | .signed => .signedInt
  | .unsigned => .unsignedInt
  | .float => .float

namespace ShaderType

/-! ## Parts of a type -/

/-- The tag of a type. -/
def kind : ShaderType → TypeKind
  | void => .void
  | numeric shape => shape.base.typeKind
  | sampler _ => .sampler
  | boundSampler _ => .boundSampler
  | texture _ _ => .texture
  | image _ _ => .image
  | buffer kind _ => .buffer kind
  | texels access _ => .texels access
  | subpassInput _ => .subpassInput
  | struct _ => .struct

/-- Whether a type is a buffer of any kind. -/
def isBuffer : ShaderType → Bool
  | buffer _ _ => true
  | _ => false

/-- Whether every payload that the kind needs is present. -/
def isComplete : ShaderType → Bool
  | image _ texel => texel.isSome
  | texels _ texel => texel.isSome
  | buffer _ body => body.isSome
  | _ => true

/-- The shape of a numeric type. -/
def numeric? : ShaderType → Option NumericType
  | numeric shape => some shape
  | _ => none

/-- The dimensionality of the image-like kinds. -/
def dims? : ShaderType → Option Dims
  | sampler dims => some dims
  | boundSampler dims => some dims
  | texture dims _ => some dims
  | image dims _ => some dims
  | subpassInput _ => some .d2
  | texels _ _ => some .none
  | _ => none

/-- The texel of the texel-carrying kinds, if it is known. -/
def texel? : ShaderType → Option Texel
  | texture _ texel => some texel
  | subpassInput texel => some texel
  | image _ texel => texel
  | texels _ texel => texel
  | _ => none

/-- The body of a buffer, if it is known. -/
def body? : ShaderType → Option ShaderType
  | buffer _ body => body
  | _ => none

/-- A type as a struct. -/
def struct? : ShaderType → Option StructType
  | struct s => some s
  | _ => none

/-- The name of a struct type. -/
def structName? (t : ShaderType) : Option String := t.struct?.map (·.name)

/-! ## Completion -/

/-- Gives a storage image or a texel buffer its texel; other kinds take none. -/
def withTexel? (t : ShaderType) (texel : Texel) : Option ShaderType :=
  match t with
  | image dims _ => some (image dims (some texel))
  | texels access _ => some (texels access (some texel))
  | _ => none

/-- Gives a buffer its body, which has to be a struct; other kinds take none. -/
def withBody? (t body : ShaderType) : Option ShaderType :=
  match t, body with
  | buffer kind _, struct s => some (buffer kind (some (struct s)))
  | _, _ => none

/-- A type that was given a texel is complete. -/
theorem isComplete_of_withTexel? {t u : ShaderType} {texel : Texel}
    (h : t.withTexel? texel = some u) : u.isComplete = true := by
  cases t <;> simp [withTexel?] at h <;> subst h <;> rfl

/-- A type that was given a body is complete. -/
theorem isComplete_of_withBody? {t u body : ShaderType}
    (h : t.withBody? body = some u) : u.isComplete = true := by
  unfold withBody? at h
  split at h
  · cases h; rfl
  · cases h

end ShaderType

end GlslEmit
