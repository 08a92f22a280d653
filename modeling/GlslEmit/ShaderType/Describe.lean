/-
# Descriptions of shader types

The text by which messages name a type: its kind, then its payload in angle brackets. A missing
texel or a body that is no struct shows as a question mark.

* `ShaderType.describe_buffer`: a buffer is described by the name of its body alone.
-/
import GlslEmit.ShaderType.Basic

namespace GlslEmit

/-- The word for a kind of buffer in descriptions. -/
def BufferKind.label : BufferKind → String
  | .uniform => "Uniform"
  | .readOnly => "ROBuffer"
  | .readWrite => "RWBuffer"

/-- The word for a texel buffer in descriptions. -/
def TexelAccess.label : TexelAccess → String
  | .readOnly => "ROTexels"
  | .readWrite => "RWTexels"

/-- A texel as it stands in messages, if it is known. -/
def describeTexel? : Option Texel → String
  | some texel => texel.describe
  | none => "?"

namespace ShaderType

/-- The type as it stands in messages. -/
def describe : ShaderType → String
  | void => "void"
  | numeric shape => shape.describe
  | sampler dims => "Sampler<" ++ dims.name ++ ">"
  | boundSampler dims => "BoundSampler<" ++ dims.name ++ ">"
  | texture dims texel => "Texture<" ++ dims.name ++ ", " ++ texel.describe ++ ">"
  | image dims texel => "Image<" ++ dims.name ++ ", " ++ describeTexel? texel ++ ">"
  | buffer kind body => kind.label ++ "<" ++ ((body.bind structName?).getD "?") ++ ">"
  | texels access texel => access.label ++ "<" ++ describeTexel? texel ++ ">"
  | subpassInput texel => "SubpassInput<" ++ texel.describe ++ ">"
  | struct s => "struct " ++ s.name

/-- Only the name of its body tells a buffer's description apart from another of its kind. -/
theorem describe_buffer (kind : BufferKind) (s : StructType) :
    (buffer kind (some (struct s))).describe = kind.label ++ "<" ++ s.name ++ ">" := rfl

end ShaderType

end GlslEmit
