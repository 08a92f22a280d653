/-
# Type tables

The types that a program knows by name: the builtin types, which never change, and the types that
were added. A name means one type for good: neither a builtin name nor an added name can be
added again.

* `TypeTable.checkName` says whether a name is free, a builtin name being reported first;
* `TypeTable.add` adds a type under a free name and leaves the table alone otherwise.
-/
import Std.Data.TreeMap
import GlslEmit.Error
import GlslEmit.Outcome
import GlslEmit.ShaderType.Builtin

namespace GlslEmit

/-- The types that were added, by name. -/
structure TypeTable where
  added : Std.TreeMap String ShaderType

namespace TypeTable

/-- The table with the builtin types alone. -/
def empty : TypeTable := ⟨∅⟩

/-- Refuses the names that cannot be added. -/
def checkName (table : TypeTable) (name : String) : Except RegistrationError Unit :=
  if isBuiltin name then .error (.builtinShadowed name)
  else if table.added.contains name then .error (.duplicateType name)
  else .ok ()

/-- Adds a type under a free name. -/
def add (name : String) (type : ShaderType) : Action TypeTable RegistrationError ShaderType :=
  fun table =>
    match table.checkName name with
    | .error e => .refused table e
    | .ok () => .accepted ⟨table.added.insert name type⟩ type [.typeRegistered name type]

/-- The type that a name means: an added type first, then a builtin one. -/
def resolve? (table : TypeTable) (name : String) : Option ShaderType :=
  match table.added[name]? with
  | some type => some type
  | none => builtin? name

/-- Whether a name means a type. -/
def contains (table : TypeTable) (name : String) : Bool :=
  table.added.contains name || isBuiltin name

/-- The number of added types. -/
def size (table : TypeTable) : Nat := table.added.size

/-- Whether no type was added. -/
def isEmpty (table : TypeTable) : Bool := table.added.isEmpty

/-- Exactly the names without a type are free. -/
theorem checkName_eq_ok_iff (table : TypeTable) (name : String) :
    table.checkName name = .ok () ↔ table.contains name = false := by
  unfold checkName contains
  cases isBuiltin name <;> cases table.added.contains name <;> simp

end TypeTable

end GlslEmit
