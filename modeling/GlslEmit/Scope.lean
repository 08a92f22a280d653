/-
# Global scope

The global variables of a program, in the order of their declaration, with an index from names to
positions. A name is declared once: a second variable of the same name is refused.

* `Scope.declare` adds a variable under a free name and leaves the scope alone otherwise, and
  `Scope.offer` does the same but answers whether the name was free;
* `Scope.get?` finds the variable of a name through the index.
-/
import Std.Data.TreeMap
import GlslEmit.Error
import GlslEmit.Outcome

namespace GlslEmit

/-- The global variables in order, and the position of each name among them. -/
structure Scope where
  globals : Array Variable
  positions : Std.TreeMap String Nat

namespace Scope

/-- The scope without variables. -/
def empty : Scope := ⟨#[], ∅⟩

/-- Refuses the names that are declared. -/
def checkName (scope : Scope) (name : String) : Except RegistrationError Unit :=
  if scope.positions.contains name then .error (.duplicateGlobal name) else .ok ()

/-- Adds a variable under a free name. -/
def declare (v : Variable) : Action Scope RegistrationError Unit := fun scope =>
  match scope.checkName v.name with
  | .error e => .refused scope e
  | .ok () =>
    .accepted ⟨scope.globals.push v, scope.positions.insert v.name scope.globals.size⟩ ()
      [.globalDeclared v.name v.kind]

/-- Adds a variable under a free name, and answers whether it did. -/
def offer (v : Variable) : Action Scope RegistrationError Bool := fun scope =>
  let declared := declare v scope
  ⟨.ok declared.result.isOk, declared.state, declared.log⟩

/-- Whether a variable of this name is declared. -/
def contains (scope : Scope) (name : String) : Bool := scope.positions.contains name

/-- The variable of a name. -/
def get? (scope : Scope) (name : String) : Option Variable :=
  scope.positions[name]?.bind fun i => scope.globals[i]?

/-- The number of variables. -/
def size (scope : Scope) : Nat := scope.globals.size

/-- Whether no variable is declared. -/
def isEmpty (scope : Scope) : Bool := scope.globals.isEmpty

/-- Exactly the names that are not declared are free. -/
theorem checkName_eq_ok_iff (scope : Scope) (name : String) :
    scope.checkName name = .ok () ↔ scope.contains name = false := by
  unfold checkName contains
  cases scope.positions.contains name <;> simp

end Scope

end GlslEmit
