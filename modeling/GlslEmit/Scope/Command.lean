/-
# Commands to a scope

Every operation of a scope as a value, so that a history of calls is a list.

* `Scope.step` runs one command and answers with a `Scope.Answer`;
* `Scope.run` runs a list of commands, the refused ones among them;
* `Scope.additions` lists the variables that the commands of a run added, told by the answers.
-/
import GlslEmit.Scope

namespace GlslEmit.Scope

/-- An operation of a scope. -/
inductive Command where
  /-- Adds a variable, and is refused if its name is declared. -/
  | declare (v : Variable)
  /-- Adds a variable, and answers whether it did. -/
  | offer (v : Variable)
  | checkName (name : String)

/-- What an accepted command answers. -/
inductive Answer where
  | done
  | flag (b : Bool)

/-- Runs one command. -/
def step : Command → Action Scope RegistrationError Answer
  | .declare v => do Scope.declare v; return .done
  | .offer v => do return .flag (← Scope.offer v)
  | .checkName name => do Action.check (·.checkName name); return .done

/-- The state after a list of commands, each run on the state that the one before it leaves. -/
def run (commands : List Command) (scope : Scope) : Scope :=
  commands.foldl (fun scope c => (step c scope).state) scope

/-- The variable that a command added, told by its answer. -/
def Command.added? : Command → Except RegistrationError Answer → Option Variable
  | declare v, .ok _ => some v
  | offer v, .ok (.flag true) => some v
  | _, _ => none

/-- The variables that the commands of a run added, in order. -/
def additions : List Command → Scope → List Variable
  | [], _ => []
  | c :: rest, scope =>
    (c.added? (step c scope).result).toList ++ additions rest (step c scope).state

end GlslEmit.Scope
