/-
# The index of a scope

A scope stores its variables twice: in order of declaration, and as an index from names to
positions.  The two belong together as long as a name is added only while it is free.

* `Scope.names` lists the declared names, in order;
* `declare_of_free` and `declare_of_taken`: what a declaration does;
* `Scope.Indexed` ties the index to the variables; it holds of the empty scope and is kept by
  every declaration under a free name (`Indexed.extended`);
* `Indexed.taken` and `Indexed.free`: exactly the names in the list are refused.
-/
import GlslEmit.Scope

namespace GlslEmit.Scope

variable {scope : Scope} {name : String} {v : Variable}

/-- The declared names, in order of declaration. -/
def names (scope : Scope) : List String := scope.globals.toList.map (·.name)

/-- The scope with one more variable, as it is behind an accepted declaration. -/
def extended (scope : Scope) (v : Variable) : Scope :=
  ⟨scope.globals.push v, scope.positions.insert v.name scope.globals.size⟩

theorem globals_extended : (scope.extended v).globals.toList = scope.globals.toList ++ [v] :=
  Array.toList_push

theorem names_extended : (scope.extended v).names = scope.names ++ [v.name] := by
  rw [names, globals_extended, List.map_append]
  rfl

theorem declare_of_free (h : scope.checkName v.name = .ok ()) :
    declare v scope = .accepted (scope.extended v) () [.globalDeclared v.name v.kind] := by
  rw [declare, h]
  rfl

/-- A name that is not free is declared. -/
theorem contains_of_taken {e : RegistrationError} (h : scope.checkName name = .error e) :
    scope.contains name = true := by
  cases hcontains : scope.contains name with
  | true => rfl
  | false =>
    rw [(checkName_eq_ok_iff scope name).mpr hcontains] at h
    cases h

theorem declare_of_taken {e : RegistrationError} (h : scope.checkName v.name = .error e) :
    declare v scope = .refused scope e := by
  rw [declare, h]

/-- Every name stands in the index with the position of its variable, and with no other. -/
def Indexed (scope : Scope) : Prop :=
  ∀ (name : String) (i : Nat),
    scope.positions[name]? = some i ↔ ∃ v, scope.globals[i]? = some v ∧ v.name = name

theorem indexed_empty : empty.Indexed := by
  intro name i
  simp [empty]

namespace Indexed

theorem contains_iff (h : scope.Indexed) : scope.contains name = true ↔ name ∈ scope.names := by
  unfold contains names
  rw [Std.TreeMap.contains_eq_isSome_getElem?, Option.isSome_iff_exists, List.mem_map]
  constructor
  · rintro ⟨i, hi⟩
    obtain ⟨v, hv, hname⟩ := (h name i).mp hi
    exact ⟨v, Array.mem_toList_iff.mpr (Array.mem_of_getElem? hv), hname⟩
  · rintro ⟨v, hv, hname⟩
    obtain ⟨i, hi⟩ := Array.mem_iff_getElem?.mp (Array.mem_toList_iff.mp hv)
    exact ⟨i, (h name i).mpr ⟨v, hi, hname⟩⟩

/-- A declared name is refused. -/
theorem taken (h : scope.Indexed) (hname : name ∈ scope.names) :
    scope.checkName name = .error (.duplicateGlobal name) := by
  have hcontains : scope.positions.contains name = true := h.contains_iff.mpr hname
  rw [checkName, if_pos hcontains]

/-- A name that is not declared is not refused. -/
theorem free (h : scope.Indexed) (hname : name ∉ scope.names) : scope.checkName name = .ok () := by
  have hcontains : ¬ scope.positions.contains name = true := fun hc =>
    hname (h.contains_iff.mp hc)
  rw [checkName, if_neg hcontains]

/-- What is not refused is not declared. -/
theorem not_mem_of_free (h : scope.Indexed) (hfree : scope.checkName name = .ok ()) :
    name ∉ scope.names := by
  intro hname
  rw [h.taken hname] at hfree
  cases hfree

/-- A declaration under a free name keeps variables and index together. -/
theorem extended (h : scope.Indexed) (hname : v.name ∉ scope.names) :
    (scope.extended v).Indexed := by
  intro name i
  -- the new position is the only one that can be new
  have hpositions : (scope.extended v).positions[name]? =
      if v.name = name then some scope.globals.size else scope.positions[name]? := by
    show (scope.positions.insert v.name scope.globals.size)[name]? = _
    rw [Std.TreeMap.getElem?_insert]
    simp only [Std.compare_eq_iff_eq]
  have hglobals : (scope.extended v).globals[i]? =
      if i = scope.globals.size then some v else scope.globals[i]? := Array.getElem?_push
  rw [hpositions, hglobals]
  have hbound {w : Variable} (hw : scope.globals[i]? = some w) : i ≠ scope.globals.size :=
    Nat.ne_of_lt (Array.getElem?_eq_some_iff.mp hw).1
  by_cases hv : v.name = name
  · rw [if_pos hv]
    constructor
    · intro hi
      cases hi
      exact ⟨v, if_pos rfl, hv⟩
    · rintro ⟨w, hw, hwname⟩
      split at hw
      · next hi => rw [hi]
      · -- an older variable does not have the new name
        have hold : name ∈ scope.names :=
          List.mem_map.mpr ⟨w, Array.mem_toList_iff.mpr (Array.mem_of_getElem? hw), hwname⟩
        exact absurd hold (hv ▸ hname)
  · rw [if_neg hv, h name i]
    constructor
    · rintro ⟨w, hw, hwname⟩
      exact ⟨w, by rw [if_neg (hbound hw), hw], hwname⟩
    · rintro ⟨w, hw, hwname⟩
      split at hw
      · cases hw
        exact absurd hwname hv
      · exact ⟨w, hw, hwname⟩

end Indexed

end GlslEmit.Scope
