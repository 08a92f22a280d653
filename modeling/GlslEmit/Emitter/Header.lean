/-
# Writing headers

The interface declarations of single stages: vertex attributes, fragment outputs, input
attachments, and values that one stage passes to a later one.

* a varying value is declared twice at one location, as an output of its producer and as an input
  of its consumer, and every accepted one takes the next location;
* only scalars and vectors that are no arrays fit one location.
-/
import GlslEmit.Emitter.Basic

namespace GlslEmit

/-- An interface variable as a located value of the given direction, with the words that name its
place in an error. -/
def locatedValue (place : String) (direction : Direction) (v : InterfaceVariable) :
    Except EmitError LocatedValue :=
  match v.type.numericToken? with
  | some token => .ok ⟨v.location, direction, false, token, v.name, v.arraySize⟩
  | none => .error (.unmappableType (place ++ " '" ++ v.name ++ "'") v.type.describe)

/-- The word for the type of a value that is passed between stages. -/
def varyingToken? (v : Variable) : Option String :=
  match v.type with
  | .numeric shape => if shape.isMatrix || v.isArray then none else shape.token?
  | _ => none

/-- A value that is passed between stages, as the given stage declares it. -/
def varyingValue (location : UInt32) (direction : Direction) (stage : Stage) (token : String)
    (v : Variable) : LocatedValue :=
  ⟨location, direction, v.isFlat, token, varyingName stage v.name, 1⟩

namespace Emitter

/-- Declares a vertex attribute. -/
def declareVertexInput (v : InterfaceVariable) : Action Emitter EmitError Unit := fun g =>
  match locatedValue "vertex input" .input v with
  | .error e => .refused g e
  | .ok value => .accepted (g.declareIn .vertex (.located value)) () []

/-- Declares a fragment output. -/
def declareFragmentOutput (v : InterfaceVariable) : Action Emitter EmitError Unit := fun g =>
  match locatedValue "fragment output" .output v with
  | .error e => .refused g e
  | .ok value => .accepted (g.declareIn .fragment (.located value)) () []

/-- Declares an input attachment of the fragment stage. -/
def declareAttachment (v : AttachmentVariable) : Action Emitter EmitError Unit := fun g =>
  match v.component.attachmentToken? with
  | none => .refused g (.unmappableType ("subpass input '" ++ v.name ++ "'") v.component.name)
  | some token => .accepted (g.declareIn .fragment (.attachment v.index token v.name)) () []

/-- Declares a value that one stage passes to a later one, and returns its location. -/
def declareVarying (v : Variable) (producer consumer : Stage) : Action Emitter EmitError UInt32 :=
  fun g =>
    if producer < consumer then
      match varyingToken? v with
      | none =>
        .refused g (.unmappableType ("local '" ++ v.name ++ "'")
          (v.type.describe ++ arraySuffix v.arraySize))
      | some token =>
        let location := g.nextLocation
        let g := g.declareIn producer (.located (varyingValue location .output producer token v))
        let g := g.declareIn consumer (.located (varyingValue location .input consumer token v))
        .accepted { g with nextLocation := location + 1 } location []
    else .refused g (.sequence (.invalidStagePair producer consumer))

end Emitter

end GlslEmit
