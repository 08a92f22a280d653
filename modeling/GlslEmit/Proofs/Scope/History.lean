/-
# Variables of a scope

A scope is a map in order of addition in which the first variable of a name wins.  Its index is a
second copy of what the variables say already: while the two belong together, looking a name up
through the index is searching the variables for it (`Indexed.get?_eq_find?`).

* `Scope.step_cases`: a command adds its variable at the end, or changes nothing;
* `Scope.get?_run`: the variable of a name behind a run, read off the commands alone;
* `Scope.globals_run`: the variables behind a run are the additions, in order;
* `Scope.first_addition_wins`: index, variables and answers behind every run.
-/
import GlslEmit.Proofs.History
import GlslEmit.Proofs.Scope
import GlslEmit.Scope.Command

namespace GlslEmit.Scope

variable {scope : Scope} {name : String} {v : Variable}

/-! ## Looking a name up -/

namespace Indexed

/-- Two variables of one name would need two positions in the index. -/
theorem nodup_names (h : scope.Indexed) : scope.names.Nodup := by
  have hposition {i : Nat} {name : String} (hi : scope.names[i]? = some name) :
      scope.positions[name]? = some i := by
    rw [names, List.getElem?_map, Option.map_eq_some_iff] at hi
    obtain ⟨v, hv, hname⟩ := hi
    exact (h name i).mpr ⟨v, Array.getElem?_toList ▸ hv, hname⟩
  apply List.pairwise_iff_getElem.mpr
  intro i j hi hj hij hsame
  have hfirst := hposition (List.getElem?_eq_getElem hi)
  have hsecond := hposition (List.getElem?_eq_getElem hj)
  rw [hsame, hsecond] at hfirst
  exact Nat.ne_of_gt hij (Option.some.inj hfirst)

theorem get?_eq_some_iff (h : scope.Indexed) :
    scope.get? name = some v ↔ v ∈ scope.globals.toList ∧ v.name = name := by
  rw [get?, Option.bind_eq_some_iff, Array.mem_toList_iff, Array.mem_iff_getElem?]
  constructor
  · rintro ⟨i, hi, hv⟩
    obtain ⟨w, hw, hname⟩ := (h name i).mp hi
    rw [hv] at hw
    cases hw
    exact ⟨⟨i, hv⟩, hname⟩
  · rintro ⟨⟨i, hv⟩, hname⟩
    exact ⟨i, (h name i).mpr ⟨v, hv, hname⟩, hv⟩

/-- Looking a name up through the index is searching the variables for it. -/
theorem get?_eq_find? (h : scope.Indexed) (name : String) :
    scope.get? name = scope.globals.toList.find? (·.name = name) := by
  cases hfind : scope.globals.toList.find? (·.name = name) with
  | some v =>
    have hname := List.find?_some hfind
    rw [decide_eq_true_eq] at hname
    exact h.get?_eq_some_iff.mpr ⟨List.mem_of_find?_eq_some hfind, hname⟩
  | none =>
    rw [Option.eq_none_iff_forall_ne_some]
    intro v hv
    obtain ⟨hmem, hname⟩ := h.get?_eq_some_iff.mp hv
    exact List.find?_eq_none.mp hfind v hmem (decide_eq_true hname)

theorem contains_eq_isSome_get? (h : scope.Indexed) (name : String) :
    scope.contains name = (scope.get? name).isSome := by
  rw [Bool.eq_iff_iff, h.contains_iff, names, List.mem_map, Option.isSome_iff_exists]
  simp only [h.get?_eq_some_iff]

/-- A further variable is found under its name, and the older ones as before. -/
theorem get?_extended (h : scope.Indexed) (hname : v.name ∉ scope.names) (name : String) :
    (scope.extended v).get? name =
      (scope.get? name).or (if v.name = name then some v else none) := by
  rw [(h.extended hname).get?_eq_find?, globals_extended, List.find?_append, ← h.get?_eq_find?]
  congr 1
  rw [List.find?_singleton]
  simp only [decide_eq_true_eq]

end Indexed

/-- The index and the variables belong together and count as many entries. -/
structure Coherent (scope : Scope) : Prop where
  indexed : scope.Indexed
  size : scope.positions.size = scope.globals.size

theorem coherent_empty : empty.Coherent := ⟨indexed_empty, rfl⟩

theorem Coherent.extended (h : scope.Coherent) (hfree : scope.checkName v.name = .ok ()) :
    (scope.extended v).Coherent := by
  have hnew : scope.positions.contains v.name = false := (checkName_eq_ok_iff scope v.name).mp hfree
  refine ⟨h.indexed.extended (h.indexed.not_mem_of_free hfree), ?_⟩
  show (scope.positions.insert v.name scope.globals.size).size = (scope.globals.push v).size
  rw [Std.TreeMap.size_insert, Array.size_push, h.size]
  exact if_neg (ne_true_of_eq_false hnew)

/-! ## One command -/

theorem offer_of_free (h : scope.checkName v.name = .ok ()) :
    offer v scope = .accepted (scope.extended v) true [.globalDeclared v.name v.kind] := by
  rw [offer, declare_of_free h]
  rfl

theorem offer_of_taken {e : RegistrationError} (h : scope.checkName v.name = .error e) :
    offer v scope = .accepted scope false [] := by
  rw [offer, declare_of_taken h]
  rfl

theorem declare_eq_ok_iff :
    (declare v scope).result = .ok () ↔ scope.checkName v.name = .ok () := by
  cases h : scope.checkName v.name with
  | ok u =>
    rw [declare_of_free h]
    exact iff_of_true rfl rfl
  | error e =>
    rw [declare_of_taken h]
    exact iff_of_false nofun nofun

theorem offer_eq_ok_true_iff :
    (offer v scope).result = .ok true ↔ scope.checkName v.name = .ok () := by
  cases h : scope.checkName v.name with
  | ok u =>
    rw [offer_of_free h]
    exact iff_of_true rfl rfl
  | error e =>
    rw [offer_of_taken h]
    exact iff_of_false nofun nofun

/-- The variable that a command would add. -/
def Command.variable? : Command → Option Variable
  | declare v | offer v => some v
  | checkName _ => none

/-- The variable that a command would add under a name. -/
def Command.variableFor? (name : String) (c : Command) : Option Variable :=
  c.variable?.filter (·.name = name)

/-- A command adds its variable at the end, if its name is free, and else changes nothing. -/
theorem step_cases (c : Command) (scope : Scope) :
    ((step c scope).state = scope ∧ c.added? (step c scope).result = none ∧
      ∀ v, c.variable? = some v → scope.contains v.name = true) ∨
    ∃ v, c.variable? = some v ∧ scope.checkName v.name = .ok () ∧
      (step c scope).state = scope.extended v ∧ c.added? (step c scope).result = some v := by
  have htaken {v : Variable} {e : RegistrationError} (h : scope.checkName v.name = .error e)
      (w : Variable) (hw : some v = some w) : scope.contains w.name = true := by
    cases hw
    exact contains_of_taken h
  cases c with
  | checkName name =>
    have hkeeps : (step (.checkName name)).Keeps id := (Action.check_keeps _).answer _
    have hadded (result) : (Command.checkName name).added? result = none := by cases result <;> rfl
    exact Or.inl ⟨hkeeps scope, hadded _, nofun⟩
  | declare v =>
    cases h : scope.checkName v.name with
    | ok u =>
      have hstep : step (.declare v) scope = .accepted (scope.extended v) .done
          [.globalDeclared v.name v.kind] := Action.bind_accepted (declare_of_free h) rfl
      right
      rw [hstep]
      exact ⟨v, rfl, h, rfl, rfl⟩
    | error e =>
      have hstep : step (.declare v) scope = .refused scope e :=
        Action.bind_refused (declare_of_taken h) _
      left
      rw [hstep]
      exact ⟨rfl, rfl, htaken h⟩
  | offer v =>
    cases h : scope.checkName v.name with
    | ok u =>
      have hstep : step (.offer v) scope = .accepted (scope.extended v) (.flag true)
          [.globalDeclared v.name v.kind] := Action.bind_accepted (offer_of_free h) rfl
      right
      rw [hstep]
      exact ⟨v, rfl, h, rfl, rfl⟩
    | error e =>
      have hstep : step (.offer v) scope = .accepted scope (.flag false) [] :=
        Action.bind_accepted (offer_of_taken h) rfl
      left
      rw [hstep]
      exact ⟨rfl, rfl, htaken h⟩

/-- Every command keeps index and variables together. -/
theorem Coherent.step (h : scope.Coherent) (c : Command) : (step c scope).state.Coherent := by
  rcases step_cases c scope with ⟨hstate, -, -⟩ | ⟨v, -, hfree, hstate, -⟩
  · rw [hstate]
    exact h
  · rw [hstate]
    exact h.extended hfree

/-- A command gives a name a variable only while it has none. -/
theorem Coherent.get?_step (h : scope.Coherent) (c : Command) (name : String) :
    (Scope.step c scope).state.get? name = (scope.get? name).or (c.variableFor? name) := by
  rcases step_cases c scope with ⟨hstate, -, htaken⟩ | ⟨v, hv, hfree, hstate, -⟩
  · rw [hstate]
    cases hfor : c.variableFor? name with
    | none => exact Option.or_none.symm
    | some v =>
      -- the name has a variable, which stays
      rw [Command.variableFor?, Option.filter_eq_some_iff, decide_eq_true_eq] at hfor
      obtain ⟨hv, rfl⟩ := hfor
      have hsome := htaken v hv
      rw [h.indexed.contains_eq_isSome_get?] at hsome
      exact (Option.or_of_isSome hsome).symm
  · rw [hstate, h.indexed.get?_extended (h.indexed.not_mem_of_free hfree), Command.variableFor?, hv,
      Option.filter_some]
    simp only [decide_eq_true_eq]

/-! ## Runs -/

theorem coherent_run (commands : List Command) (h : scope.Coherent) :
    (run commands scope).Coherent := by
  induction commands generalizing scope with
  | nil => exact h
  | cons c commands ih => exact ih (h.step c)

/-- The variable of a name behind a run: its variable from before the run, or else the one of the
first command of the run that would add a variable of the name. -/
theorem Coherent.get?_run (h : scope.Coherent) (commands : List Command) (name : String) :
    (run commands scope).get? name =
      (scope.get? name).or (commands.findSome? (·.variableFor? name)) :=
  Action.first_given_runAll (get? · name) (Command.variableFor? name) (fun c _ h => h.step c)
    (fun c _ h => h.get?_step c name) commands h

/-- The variables behind a run are the ones from before the run and the additions, in order. -/
theorem globals_run (commands : List Command) (scope : Scope) :
    (run commands scope).globals.toList = scope.globals.toList ++ additions commands scope := by
  induction commands generalizing scope with
  | nil => exact (List.append_nil _).symm
  | cons c commands ih =>
    have hrun : run (c :: commands) scope = run commands (step c scope).state := rfl
    rw [hrun, ih, additions]
    rcases step_cases c scope with ⟨hstate, hadded, -⟩ | ⟨v, -, -, hstate, hadded⟩
    · rw [hstate, hadded]
      rfl
    · rw [hstate, hadded, globals_extended, List.append_assoc]
      rfl

/-- **The first variable of a name wins.**  Take any run of commands on the scope without variables.
Index and variables behind it have the same size; every entry of the index leads from a name to a
position in range, where a variable of exactly that name stands; and no two variables share a name.
So a name has the variable that was added first under it, which is the one of the first command
that offers a variable of the name, and it has none exactly if it is not contained.  The variables
are the added ones in order of addition.  A variable is offered with success exactly if its
declaration would be accepted, which is to say if its name passes the check. -/
theorem first_addition_wins (commands : List Command) :
    let scope := run commands empty
    scope.positions.size = scope.globals.size ∧
    (∀ name i, scope.positions[name]? = some i →
      ∃ h : i < scope.globals.size, scope.globals[i].name = name) ∧
    (scope.globals.toList.map (·.name)).Nodup ∧
    scope.globals.toList = additions commands empty ∧
    (∀ name,
      scope.get? name = (additions commands empty).find? (·.name = name) ∧
      scope.get? name = commands.findSome? (·.variableFor? name) ∧
      (scope.get? name = none ↔ scope.contains name = false)) ∧
    ∀ v, ((offer v scope).result = .ok true ↔ (declare v scope).result = .ok ()) ∧
      ((declare v scope).result = .ok () ↔ scope.checkName v.name = .ok ()) := by
  intro scope
  have h : scope.Coherent := coherent_run commands coherent_empty
  have hglobals : scope.globals.toList = additions commands empty := globals_run commands empty
  refine ⟨h.size, fun name i hi => ?_, h.indexed.nodup_names, hglobals, fun name => ⟨?_, ?_, ?_⟩,
    fun v => ⟨?_, declare_eq_ok_iff⟩⟩
  · obtain ⟨v, hv, hname⟩ := (h.indexed name i).mp hi
    obtain ⟨hrange, rfl⟩ := Array.getElem?_eq_some_iff.mp hv
    exact ⟨hrange, hname⟩
  · rw [h.indexed.get?_eq_find?, hglobals]
  · rw [coherent_empty.get?_run]
    rfl
  · rw [h.indexed.contains_eq_isSome_get?, Option.isSome_eq_false_iff, Option.isNone_iff_eq_none]
  · rw [declare_eq_ok_iff, offer_eq_ok_true_iff]

/-- A scope with two variables, after two more under the name of the first one have been turned
down. -/
theorem first_addition_wins_uv :
    let smooth : Variable := ⟨"uv", .void, 1, .varying false⟩
    let flat : Variable := ⟨"uv", .void, 1, .varying true⟩
    let tint : Variable := ⟨"tint", .void, 1, .privateValue⟩
    let commands : List Command :=
      [.offer smooth, .declare flat, .checkName "uv", .declare tint, .offer flat]
    let scope := run commands empty
    scope.globals.toList = [smooth, tint] ∧
      (∃ h : 1 < scope.globals.size, scope.globals[1].name = "tint") ∧
      scope.get? "uv" = some smooth ∧ scope.get? "UV" = none ∧
      (offer flat scope).result ≠ .ok true := by
  intro smooth flat tint commands scope
  have hscope : run commands empty = scope := rfl
  have hadditions : additions commands empty = [smooth, tint] := by cbv
  have hfound : [smooth, tint].find? (·.name = "uv") = some smooth := by cbv
  have hmissed : [smooth, tint].find? (·.name = "UV") = none := by cbv
  obtain ⟨-, hrange, -, hglobals, hname, hoffer⟩ := first_addition_wins commands
  obtain ⟨huv, -⟩ := hname "uv"
  obtain ⟨hUV, -⟩ := hname "UV"
  obtain ⟨hflat, hfree⟩ := hoffer flat
  rw [hscope] at hrange hglobals huv hUV hflat hfree
  rw [hadditions] at hglobals huv hUV
  have hindexed : scope.Indexed := (coherent_run commands coherent_empty).indexed
  have hposition : scope.positions["tint"]? = some 1 :=
    (hindexed "tint" 1).mpr ⟨tint, by rw [← Array.getElem?_toList, hglobals]; rfl, rfl⟩
  have htaken : scope.checkName "uv" = .error (.duplicateGlobal "uv") :=
    hindexed.taken (by rw [names, hglobals]; decide)
  refine ⟨hglobals, hrange "tint" 1 hposition, huv.trans hfound, hUV.trans hmissed, ?_⟩
  intro hok
  rw [hflat, hfree, htaken] at hok
  cases hok

end GlslEmit.Scope
