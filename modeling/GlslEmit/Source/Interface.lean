/-
# Interface declarations

What one stage declares in front of its body: values at interface locations, which come from an
earlier stage or go to a later one, and input attachments.

* `InterfaceDeclaration.text` writes a declaration;
* `varyingName` is the name that a value passed between stages has in one of them.
-/
import GlslEmit.Text.Join
import GlslEmit.Stage.Basic
import GlslEmit.Spelling.Value
import GlslEmit.Resource.Slot

namespace GlslEmit

/-- Whether a stage reads or writes a value. -/
inductive Direction where
  | input
  | output
  deriving DecidableEq

/-- The word for a direction. -/
def Direction.text : Direction → String
  | .input => "in"
  | .output => "out"

/-- A value at an interface location. -/
structure LocatedValue where
  location : UInt32
  direction : Direction
  /-- Whether the value is passed on without interpolation. -/
  flat : Bool
  token : String
  name : String
  arraySize : UInt32
  deriving DecidableEq

/-- A declaration in the header of one stage. -/
inductive InterfaceDeclaration where
  | located (value : LocatedValue)
  | attachment (index : UInt8) (token name : String)
  deriving DecidableEq

/-- The name of a value that is passed between stages, as one of them declares it. -/
def varyingName (stage : Stage) (name : String) : String :=
  "_" ++ stage.shortName ++ "_" ++ name

/-- The text of a value at an interface location. -/
def LocatedValue.text (v : LocatedValue) : String :=
  "layout(location = " ++ toString v.location ++ ") " ++ (if v.flat then "flat " else "") ++
    v.direction.text ++ " " ++ v.token ++ " " ++ v.name ++ arraySuffix v.arraySize ++ ";\n\n"

/-- The text of a declaration. -/
def InterfaceDeclaration.text : InterfaceDeclaration → String
  | located v => v.text
  | attachment index token name =>
    "layout(set = " ++ toString attachmentSet ++ ", binding = " ++ toString index ++
      ", input_attachment_index = " ++ toString index ++ ") uniform " ++ token ++ " " ++ name ++
      ";\n\n"

/-- The text of a header with the given declarations. -/
def headerText (declarations : List InterfaceDeclaration) : String :=
  joinTexts (declarations.map InterfaceDeclaration.text)

/-- A further declaration adds its own text at the end of the header. -/
theorem headerText_append (declarations : List InterfaceDeclaration) (d : InterfaceDeclaration) :
    headerText (declarations ++ [d]) = headerText declarations ++ d.text := by
  simp [headerText, joinTexts_append, joinTexts]

end GlslEmit
