/-
# Log events

What an accepted operation reports. An event is a value; its level and its text are functions of
it, so that the log of a run is a list that can be compared.

* `Event.level` and `Event.message` write one event as a log record.
-/
import GlslEmit.Stage.Basic
import GlslEmit.ShaderType.Describe
import GlslEmit.Variable

namespace GlslEmit

/-- The weight of a log record. -/
inductive Level where
  | trace
  | debug
  | warn
  deriving DecidableEq

/-- The name of a level. -/
def Level.name : Level → String
  | .trace => "trace"
  | .debug => "debug"
  | .warn => "warn"

/-- Something that an accepted operation reports. -/
inductive Event where
  /-- A type was added to the type table. -/
  | typeRegistered (name : String) (type : ShaderType)
  /-- A variable was added to the global scope. -/
  | globalDeclared (name : String) (kind : VariableKind)
  /-- A stage was begun a second time, so its earlier body is dropped. -/
  | bodyDiscarded (stage : Stage)
  | stageBegun (stage : Stage)
  | stageEnded (stage : Stage)
  | structEmitted (name : String)
  | bindingEmitted (name : String) (type : ShaderType)
  /-- A binding found its table declared and wrote nothing. -/
  | tableReused (name table : String)
  /-- A program was built with sources for this many stages. -/
  | programBuilt (stages : Nat)

namespace Event

/-- The weight of an event. -/
def level : Event → Level
  | typeRegistered _ _ => .trace
  | globalDeclared _ _ => .trace
  | bodyDiscarded _ => .warn
  | stageBegun _ => .debug
  | stageEnded _ => .debug
  | structEmitted _ => .trace
  | bindingEmitted _ _ => .trace
  | tableReused _ _ => .debug
  | programBuilt _ => .debug

/-- The text of an event. -/
def message : Event → String
  | typeRegistered name type => "registered type '" ++ name ++ "' as " ++ type.describe
  | globalDeclared name kind => "declared global '" ++ name ++ "' (" ++ kind.describe ++ ")"
  | bodyDiscarded stage =>
    "stage '" ++ stage.shortName ++ "' activated again, previous body discarded"
  | stageBegun stage => "begin stage '" ++ stage.shortName ++ "'"
  | stageEnded stage => "end stage '" ++ stage.shortName ++ "'"
  | structEmitted name => "emitted struct '" ++ name ++ "'"
  | bindingEmitted name type => "emitted binding '" ++ name ++ "' as " ++ type.describe
  | tableReused name table => "binding '" ++ name ++ "' reuses table '" ++ table ++ "'"
  | programBuilt stages => "built " ++ toString stages ++ " stage(s)"

end Event

end GlslEmit
