/-
# Body statements

The statements of the active body, as data and as operations. Every statement needs an active
stage, and lacks one before it is looked at any further. An accepted statement writes one line at
the current depth; an opener makes the following lines one deeper, and a close stands at the
depth of its opener.

* reading a sub-index a second time in one body writes nothing;
* `Emitter.perform` runs one statement.
-/
import GlslEmit.Emitter.Basic
import GlslEmit.Text.Placeholder

namespace GlslEmit

/-- A statement of a stage body. -/
inductive Statement where
  /-- Declares a variable of the function. -/
  | declare (v : Variable)
  | assign (left operator right : String)
  /-- Stores a value in an image, at the placeholder of the template. -/
  | store (template value : String)
  /-- Reads a sub-index into its local variable, once in each body. -/
  | unpack (index : UInt32)
  | openBlock (o : Opener)
  | closeBlock

/-- The operation that an error message names when no stage is active. -/
def Statement.operation : Statement → String
  | declare _ => "emit_declaration"
  | assign _ _ _ => "emit_assignment"
  | store _ _ => "emit_image_store"
  | unpack _ => "emit_binding_index"
  | openBlock (.ifThen _) => "emit_if"
  | openBlock (.elseIf _) => "emit_elif"
  | openBlock .otherwise => "emit_else"
  | closeBlock => "emit_block_close"

/-- The line that a statement writes, or the cause why it has none. -/
def Statement.line : Statement → Except EmitError Line
  | declare v =>
    match v.type.valueToken? with
    | none => .error (.unmappableType ("declaration '" ++ v.name ++ "'") v.type.describe)
    | some token => .ok (.declaration token v.name v.arraySize)
  | assign left operator right => .ok (.assignment left operator right)
  | store template value =>
    match fillPlaceholder? template value with
    | none => .error (.missingPlaceholder template)
    | some text => .ok (.store text)
  | unpack index =>
    if index < maxSubIndices then .ok (.unpack index)
    else .error (.indexOutOfRange index (maxSubIndices - 1))
  | openBlock o => .ok (.opener o)
  | closeBlock => .ok .close

namespace Emitter

/-- Refuses an operation while no stage is active. -/
def requireActive (operation : String) : Action Emitter EmitError Unit :=
  Action.check fun g =>
    if g.isActive then .ok () else .error (.sequence (.stageInactive operation))

/-- Adds a line to the active body, at the current depth. -/
def writeLine (operation : String) (line : Line) : Action Emitter EmitError Unit := fun g =>
  match g.openBody? with
  | none => .refused g (.sequence (.stageInactive operation))
  | some (s, b) => .accepted (g.setBody s (b.write g.depth line)) () []

/-- Writes the line of a statement that leaves depth and sub-indices alone. -/
def writeStatement (statement : Statement) : Action Emitter EmitError Unit := do
  requireActive statement.operation
  let line ← Action.check fun _ => statement.line
  writeLine statement.operation line

/-- Reads a sub-index into its local variable, unless the active body has done so. -/
def unpackIndex (index : UInt32) : Action Emitter EmitError Unit := do
  requireActive (Statement.unpack index).operation
  let line ← Action.check fun _ => (Statement.unpack index).line
  fun g =>
    if g.unpacked.contains index then .accepted g () []
    else
      let written : Action Emitter EmitError Unit := do
        writeLine (Statement.unpack index).operation line
        Action.modify fun g => { g with unpacked := (g.unpacked.insert index).2 }
      written g

/-- Writes an opener and goes one deeper. -/
def enterBlock (o : Opener) : Action Emitter EmitError Unit := do
  writeLine (Statement.openBlock o).operation (.opener o)
  Action.modify fun g => { g with depth := g.depth + 1 }

/-- Goes one less deep and writes the closing brace there. -/
def leaveBlock : Action Emitter EmitError Unit := do
  requireActive Statement.closeBlock.operation
  Action.check fun g => if g.depth > 1 then .ok () else .error (.sequence .noOpenBlock)
  Action.modify fun g => { g with depth := g.depth - 1 }
  writeLine Statement.closeBlock.operation .close

/-- Runs one statement on the active body. -/
def perform : Statement → Action Emitter EmitError Unit
  | .declare v => writeStatement (.declare v)
  | .assign left operator right => writeStatement (.assign left operator right)
  | .store template value => writeStatement (.store template value)
  | .unpack index => unpackIndex index
  | .openBlock o => enterBlock o
  | .closeBlock => leaveBlock

end Emitter

end GlslEmit
