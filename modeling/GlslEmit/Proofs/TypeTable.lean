/-
# Additions to a type table

What one addition does to a type table.  A free name takes its type, and means it from then on; the
other names keep their meanings.  Only a name without a meaning is free.

* `TypeTable.extended` is the table behind an accepted addition;
* `checkName_eq_ok_iff_resolve?`: the free names are those without a type;
* `add_of_isBuiltin` and `add_of_contains`: why the other names are refused.
-/
import GlslEmit.TypeTable

namespace GlslEmit.TypeTable

variable {table : TypeTable} {name : String}

/-! ## Free and taken names -/

theorem contains_eq_isSome_resolve? (table : TypeTable) (name : String) :
    table.contains name = (table.resolve? name).isSome := by
  rw [contains, resolve?, isBuiltin, Std.TreeMap.contains_eq_isSome_getElem?]
  cases table.added[name]? <;> rfl

/-- Exactly the names without a type are free. -/
theorem checkName_eq_ok_iff_resolve? :
    table.checkName name = .ok () ↔ table.resolve? name = none := by
  rw [checkName_eq_ok_iff, contains_eq_isSome_resolve?, Option.isSome_eq_false_iff,
    Option.isNone_iff_eq_none]

/-- A name that is not free has a type. -/
theorem contains_of_taken {e : RegistrationError} (h : table.checkName name = .error e) :
    table.contains name = true := by
  cases hcontains : table.contains name with
  | true => rfl
  | false =>
    rw [(checkName_eq_ok_iff table name).mpr hcontains] at h
    cases h

/-- The table with one more type, as it is behind an accepted addition. -/
def extended (table : TypeTable) (name : String) (type : ShaderType) : TypeTable :=
  ⟨table.added.insert name type⟩

theorem add_of_free (type : ShaderType) (h : table.checkName name = .ok ()) :
    add name type table =
      .accepted (table.extended name type) type [.typeRegistered name type] := by
  rw [add, h]
  rfl

theorem add_of_taken (type : ShaderType) {e : RegistrationError}
    (h : table.checkName name = .error e) : add name type table = .refused table e := by
  rw [add, h]

/-- An addition gives its name a type and leaves the other names alone. -/
theorem resolve?_extended (type : ShaderType) (h : table.resolve? name = none) (other : String) :
    (table.extended name type).resolve? other =
      (table.resolve? other).or (if name = other then some type else none) := by
  rw [resolve?, extended, Std.TreeMap.getElem?_insert]
  simp only [Std.compare_eq_iff_eq]
  by_cases hname : name = other
  · subst hname
    rw [if_pos rfl, if_pos rfl, h]
    rfl
  · rw [if_neg hname, if_neg hname, Option.or_none]
    rfl

theorem size_extended (type : ShaderType) (h : table.checkName name = .ok ()) :
    (table.extended name type).size = table.size + 1 := by
  have hfree := (checkName_eq_ok_iff table name).mp h
  rw [contains, Bool.or_eq_false_iff] at hfree
  rw [size, extended, Std.TreeMap.size_insert, hfree.1]
  rfl

/-! ## Refused additions -/

/-- A builtin name is never free. -/
theorem add_of_isBuiltin (type : ShaderType) (h : isBuiltin name = true) :
    add name type table = .refused table (.builtinShadowed name) := by
  apply add_of_taken
  rw [checkName, if_pos h]

/-- Any other name is free until it is added. -/
theorem add_of_contains (type : ShaderType) (hbuiltin : isBuiltin name = false)
    (h : table.contains name = true) :
    add name type table = .refused table (.duplicateType name) := by
  have hadded : table.added.contains name = true := by
    rw [contains, hbuiltin, Bool.or_false] at h
    exact h
  apply add_of_taken
  rw [checkName, if_neg (Bool.eq_false_iff.mp hbuiltin), if_pos hadded]

theorem isOk_add_iff (type : ShaderType) :
    (add name type table).result.isOk = true ↔ table.checkName name = .ok () := by
  cases h : table.checkName name with
  | ok u =>
    rw [add_of_free type h]
    exact iff_of_true rfl rfl
  | error e =>
    rw [add_of_taken type h]
    exact iff_of_false Bool.false_ne_true nofun

end GlslEmit.TypeTable
