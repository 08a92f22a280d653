/-
# Variables

Declared variables with their storage. A global declaration starts from a narrower form, which
holds what its declaration needs, and is recorded as a full variable.

* `InterfaceVariable.asInput` and `asOutput`, `ResourceVariable.asBinding` and `asUniform`, and
  `AttachmentVariable.toVariable` say what is recorded;
* only interface variables keep an array length: the other forms are recorded with length 1.
-/
import GlslEmit.ShaderType.Basic

namespace GlslEmit

/-- Where a variable lives, with what its storage needs to know. -/
inductive VariableKind where
  /-- A value of one function. -/
  | privateValue
  /-- A value passed from one stage to a later one, interpolated unless it is flat. -/
  | varying (flat : Bool)
  /-- A vertex attribute. -/
  | input (location : UInt32)
  /-- A colour output of the fragment stage. -/
  | output (location : UInt32)
  /-- A resource in a shared table. -/
  | binding
  /-- The uniform block. -/
  | uniform
  /-- An input attachment. -/
  | subpassInput (index : UInt8)
  deriving DecidableEq

/-- The kind as it stands in log messages. -/
def VariableKind.describe : VariableKind → String
  | .privateValue => "Private"
  | .varying true => "Local \x7b flat: true \x7d"
  | .varying false => "Local \x7b flat: false \x7d"
  | .input location => "Input \x7b location: " ++ toString location ++ " \x7d"
  | .output location => "Output \x7b location: " ++ toString location ++ " \x7d"
  | .binding => "Binding"
  | .uniform => "Uniform"
  | .subpassInput index => "SubpassInput \x7b index: " ++ toString index ++ " \x7d"

/-- A declared variable; its array length is 1 when it is no array. -/
structure Variable where
  name : String
  type : ShaderType
  arraySize : UInt32
  kind : VariableKind

namespace Variable

/-- Whether a variable is an array: every length but 1 makes one. -/
def isArray (v : Variable) : Bool := v.arraySize != 1

/-- Whether a variable is passed between stages without interpolation. -/
def isFlat (v : Variable) : Bool := v.kind == .varying true

end Variable

/-- A vertex attribute or a fragment output at an interface location. -/
structure InterfaceVariable where
  name : String
  type : ShaderType
  arraySize : UInt32
  location : UInt32

namespace InterfaceVariable

/-- The variable that a vertex attribute declares. -/
def asInput (v : InterfaceVariable) : Variable :=
  ⟨v.name, v.type, v.arraySize, .input v.location⟩

/-- The variable that a fragment output declares. -/
def asOutput (v : InterfaceVariable) : Variable :=
  ⟨v.name, v.type, v.arraySize, .output v.location⟩

end InterfaceVariable

/-- A resource: an entry of a shared table, or the uniform block. -/
structure ResourceVariable where
  name : String
  type : ShaderType

namespace ResourceVariable

/-- The variable that a table entry declares. -/
def asBinding (v : ResourceVariable) : Variable := ⟨v.name, v.type, 1, .binding⟩

/-- The variable that the uniform block declares. -/
def asUniform (v : ResourceVariable) : Variable := ⟨v.name, v.type, 1, .uniform⟩

end ResourceVariable

/-- An input attachment of the fragment stage. -/
structure AttachmentVariable where
  name : String
  component : ScalarKind
  index : UInt8

/-- The variable that an input attachment declares: its texel has four four-byte components. -/
def AttachmentVariable.toVariable (v : AttachmentVariable) : Variable :=
  ⟨v.name, .subpassInput ⟨v.component, 4, 4⟩, 1, .subpassInput v.index⟩

end GlslEmit
