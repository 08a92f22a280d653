/-
# Errors

Why an operation is refused. A registration error is a name that is taken. A sequence error is a
call at the wrong moment. An emission error is a declaration or statement without a spelling, or
a sequence error. A program error is one of either phase.

* `message` is the text of each error, written once for each type;
* `ProgramError.phase` says which phase refused.
-/
import GlslEmit.Stage.Basic
import GlslEmit.ShaderType.Basic

namespace GlslEmit

/-- A name that cannot be registered. -/
inductive RegistrationError where
  /-- A type of this name was added before. -/
  | duplicateType (name : String)
  /-- A builtin type has this name. -/
  | builtinShadowed (name : String)
  /-- A global of this name was declared before. -/
  | duplicateGlobal (name : String)
  deriving DecidableEq

namespace RegistrationError

/-- The name that is taken. -/
def name : RegistrationError → String
  | duplicateType name => name
  | builtinShadowed name => name
  | duplicateGlobal name => name

/-- The text of the error. -/
def message : RegistrationError → String
  | duplicateType name => "duplicate type: " ++ name
  | builtinShadowed name => "type '" ++ name ++ "' collides with a builtin type"
  | duplicateGlobal name => "duplicate global: " ++ name

end RegistrationError

/-- A call at the wrong moment. -/
inductive SequenceError where
  /-- A body statement, or the end of a stage, while no stage is active. -/
  | stageInactive (operation : String)
  /-- A stage was begun while another one is active. -/
  | stageAlreadyActive (active requested : Stage)
  /-- A block was closed while none is open. -/
  | noOpenBlock
  /-- A stage was ended while blocks are open. -/
  | unclosedBlocks (stage : Stage) (count : Nat)
  /-- The program was built while a stage is active. -/
  | stageNotEnded (stage : Stage)
  /-- A value was passed to a stage that does not come later. -/
  | invalidStagePair (producer consumer : Stage)
  deriving DecidableEq

/-- The text of the error. -/
def SequenceError.message : SequenceError → String
  | stageInactive operation => "'" ++ operation ++ "' requires an active stage"
  | stageAlreadyActive active requested =>
    "cannot begin stage '" ++ requested.shortName ++ "' while stage '" ++ active.shortName ++
      "' is active"
  | noOpenBlock => "block close with no open block"
  | unclosedBlocks stage count =>
    "stage '" ++ stage.shortName ++ "' ended with " ++ toString count ++ " unclosed block(s)"
  | stageNotEnded stage => "stage '" ++ stage.shortName ++ "' was never ended"
  | invalidStagePair producer consumer =>
    "stage '" ++ producer.shortName ++ "' does not precede stage '" ++ consumer.shortName ++ "'"

/-- A declaration or statement that cannot be emitted. -/
inductive EmitError where
  /-- A type has no spelling where it is used: the place, and the type as it is described. -/
  | unmappableType (place detail : String)
  /-- A resource has a token, but its texel has no format. -/
  | invalidFormat (name : String)
  /-- A resource has a token, but no shared table holds its kind. -/
  | invalidBindingKind (name : String) (kind : TypeKind)
  /-- A buffer without a struct body. -/
  | incompleteType (name detail : String)
  /-- An image store without a place for the stored value. -/
  | missingPlaceholder (template : String)
  /-- A sub-index beyond the largest one. -/
  | indexOutOfRange (index max : UInt32)
  /-- A second uniform block. -/
  | duplicateUniform (name : String)
  /-- A call at the wrong moment. -/
  | sequence (error : SequenceError)
  deriving DecidableEq

namespace EmitError

/-- The text of the error. -/
def message : EmitError → String
  | unmappableType place detail => "unmappable type for " ++ place ++ ": " ++ detail
  | invalidFormat name => "invalid binding extra type for '" ++ name ++ "'"
  | invalidBindingKind name kind =>
    "type kind " ++ kind.name ++ " of '" ++ name ++ "' cannot be placed in a binding table"
  | incompleteType name detail => "incomplete type for '" ++ name ++ "': " ++ detail
  | missingPlaceholder template =>
    "image store template '" ++ template ++ "' has no '\x7b\x7d' placeholder"
  | indexOutOfRange index max =>
    "binding index " ++ toString index ++ " out of range (maximum is " ++ toString max ++ ")"
  | duplicateUniform name => "uniform block already emitted, cannot emit '" ++ name ++ "'"
  | sequence error => "protocol violation: " ++ error.message

/-- Whether the caller is at fault, and not the program that is emitted. -/
def isSequenceError : EmitError → Bool
  | sequence _ => true
  | _ => false

end EmitError

/-- The phase that refused an operation on a program. -/
inductive Phase where
  | registration
  | generate
  deriving DecidableEq

/-- The name of a phase. -/
def Phase.name : Phase → String
  | .registration => "registration"
  | .generate => "generate"

/-- An operation on a program that is refused. -/
inductive ProgramError where
  | registration (error : RegistrationError)
  | emission (error : EmitError)
  deriving DecidableEq

namespace ProgramError

/-- The phase that refused the operation. -/
def phase : ProgramError → Phase
  | registration _ => .registration
  | emission _ => .generate

/-- The text of the error. -/
def message : ProgramError → String
  | registration error => "registration error: " ++ error.message
  | emission error => "generate error: " ++ error.message

end ProgramError

end GlslEmit
