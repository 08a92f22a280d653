/-
# Commands to a type table

Every operation of a type table as a value, so that a history of calls is a list.

* `TypeTable.step` runs one command and answers with a `TypeTable.Answer`;
* `TypeTable.run` runs a list of commands, the refused ones among them.
-/
import GlslEmit.TypeTable

namespace GlslEmit.TypeTable

/-- An operation of a type table. -/
inductive Command where
  | add (name : String) (type : ShaderType)
  | checkName (name : String)
  | resolve (name : String)
  | contains (name : String)

/-- What an accepted command answers. -/
inductive Answer where
  | done
  | type (t : Option ShaderType)
  | flag (b : Bool)

/-- Runs one command. -/
def step : Command → Action TypeTable RegistrationError Answer
  | .add name type => do return .type (some (← TypeTable.add name type))
  | .checkName name => do Action.check (·.checkName name); return .done
  | .resolve name => Action.check fun table => .ok (.type (table.resolve? name))
  | .contains name => Action.check fun table => .ok (.flag (table.contains name))

/-- The state after a list of commands, each run on the state that the one before it leaves. -/
def run (commands : List Command) (table : TypeTable) : TypeTable :=
  commands.foldl (fun table c => (step c table).state) table

end GlslEmit.TypeTable
