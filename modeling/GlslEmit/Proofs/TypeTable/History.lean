/-
# Names of a type table

A name means one type for good.  The builtin names are taken from the start, and any other name is
taken by the first command that adds it; a name that is taken can not be added again, so no later
command changes what it means.

* `TypeTable.resolve?_run`: what a name means behind a run, read off the commands alone;
* `TypeTable.size_run`: the added types are counted;
* `TypeTable.names_resolve_for_good`: free, taken and builtin names behind every run.
-/
import GlslEmit.Proofs.History
import GlslEmit.Proofs.TypeTable
import GlslEmit.TypeTable.Command

namespace GlslEmit.TypeTable

variable {table : TypeTable} {name : String}

/-! ## One command -/

/-- Whether a command adds a type. -/
def Command.isAdd : Command → Bool
  | add _ _ => true
  | _ => false

/-- The type that a command would give to a name. -/
def Command.typeFor? (name : String) : Command → Option ShaderType
  | add name' type => if name' = name then some type else none
  | _ => none

theorem Command.typeFor?_of_not_isAdd {c : Command} (hc : c.isAdd = false) (name : String) :
    c.typeFor? name = none := by
  cases c with
  | add name type => cases hc
  | _ => rfl

/-- A command adds a type under a free name, or is refused because the name has a type, or is a
question and changes nothing. -/
theorem step_cases (c : Command) (table : TypeTable) :
    (∃ name type, c = .add name type ∧ table.checkName name = .ok () ∧
      step c table =
        .accepted (table.extended name type) (.type (some type)) [.typeRegistered name type]) ∨
    (∃ name type e, c = .add name type ∧ table.contains name = true ∧
      step c table = .refused table e) ∨
    (c.isAdd = false ∧ (step c table).state = table) := by
  cases c with
  | add name type =>
    cases h : table.checkName name with
    | ok u => exact Or.inl ⟨name, type, rfl, h, Action.bind_accepted (add_of_free type h) rfl⟩
    | error e =>
      exact Or.inr (Or.inl ⟨name, type, e, rfl, contains_of_taken h,
        Action.bind_refused (add_of_taken type h) _⟩)
  | checkName name =>
    have hkeeps : (step (.checkName name)).Keeps id := (Action.check_keeps _).answer _
    exact Or.inr (Or.inr ⟨rfl, hkeeps table⟩)
  | resolve name => exact Or.inr (Or.inr ⟨rfl, rfl⟩)
  | contains name => exact Or.inr (Or.inr ⟨rfl, rfl⟩)

/-- A command gives a name a type only while it has none. -/
theorem resolve?_step (c : Command) (table : TypeTable) (name : String) :
    (step c table).state.resolve? name = (table.resolve? name).or (c.typeFor? name) := by
  rcases step_cases c table with
    ⟨other, type, rfl, hfree, hstep⟩ | ⟨other, type, e, rfl, htaken, hstep⟩ | ⟨hc, hstate⟩
  · rw [hstep]
    exact resolve?_extended type (checkName_eq_ok_iff_resolve?.mp hfree) name
  · rw [hstep, Command.typeFor?]
    show table.resolve? name = _
    by_cases hname : other = name
    · -- the name has a type, which stays
      rw [hname, contains_eq_isSome_resolve?] at htaken
      exact (Option.or_of_isSome htaken).symm
    · rw [if_neg hname, Option.or_none]
  · rw [hstate, Command.typeFor?_of_not_isAdd hc, Option.or_none]

/-! ## Runs -/

/-- What a name means behind a run: its type from before the run, or else the type of the first
command of the run that adds the name. -/
theorem resolve?_run (commands : List Command) (table : TypeTable) (name : String) :
    (run commands table).resolve? name =
      (table.resolve? name).or (commands.findSome? (·.typeFor? name)) :=
  Action.first_given_runAll (I := fun _ => True) (resolve? · name) (Command.typeFor? name)
    (fun _ _ h => h) (fun c table _ => resolve?_step c table name) commands trivial

/-- Behind a run there are as many added types as accepted additions. -/
theorem size_run (commands : List Command) (table : TypeTable) :
    (run commands table).size =
      table.size + (Action.accepted step commands table).countP Command.isAdd := by
  -- from the front, as the accepted commands are listed
  induction commands generalizing table with
  | nil => rfl
  | cons c commands ih =>
    have hrun : run (c :: commands) table = run commands (step c table).state := rfl
    rw [hrun, ih, Action.accepted]
    rcases step_cases c table with
      ⟨name, type, rfl, hfree, hstep⟩ | ⟨name, type, e, rfl, -, hstep⟩ | ⟨hc, hstate⟩
    · have hsize := size_extended type hfree
      rw [hstep]
      show (table.extended name type).size + _ = table.size + List.countP _ (_ :: _)
      rw [List.countP_cons_of_pos rfl, hsize]
      exact Nat.succ_add_eq_add_succ _ _
    · rw [hstep]
      rfl
    · rw [hstate]
      split
      · rw [List.countP_cons_of_neg (ne_true_of_eq_false hc)]
      · rfl

/-- A command that adds a name leaves it with a type. -/
theorem contains_run_of_mem {commands : List Command} {type : ShaderType}
    (h : .add name type ∈ commands) (table : TypeTable) :
    (run commands table).contains name = true := by
  have hgiven : (commands.findSome? (·.typeFor? name)).isSome = true :=
    List.findSome?_isSome_iff.mpr ⟨_, h, by rw [Command.typeFor?, if_pos rfl]; rfl⟩
  rw [contains_eq_isSome_resolve?, resolve?_run, Option.isSome_or, hgiven, Bool.or_true]

/-- **A name means one type for good.**  Take any run of commands on the table without added types,
and any name behind it.  A builtin name means its builtin type, and every addition of it is refused
for being builtin.  Another name means the type of the first command that adds it, and no type
without such a command; once there is one, every addition of the name is refused as a duplicate.
An addition is accepted exactly if the name passes its check, which is to say if it means no type.
What a name means, it means behind every further run, and the accepted additions are counted. -/
theorem names_resolve_for_good (commands : List Command) (name : String) :
    let table := run commands empty
    (isBuiltin name = true →
      table.resolve? name = builtin? name ∧
      ∀ type, add name type table = .refused table (.builtinShadowed name)) ∧
    (isBuiltin name = false →
      table.resolve? name = commands.findSome? (·.typeFor? name) ∧
      ((∃ type, .add name type ∈ commands) →
        ∀ type, add name type table = .refused table (.duplicateType name))) ∧
    (∀ type, (add name type table).result.isOk = true ↔ table.checkName name = .ok ()) ∧
    (table.checkName name = .ok () ↔ table.contains name = false) ∧
    (table.contains name = false ↔ table.resolve? name = none) ∧
    (∀ type, table.resolve? name = some type →
      ∀ later, (run later table).resolve? name = some type) ∧
    table.size = (Action.accepted step commands empty).countP Command.isAdd := by
  intro table
  have hresolve : table.resolve? name =
      (builtin? name).or (commands.findSome? (·.typeFor? name)) := resolve?_run commands empty name
  refine ⟨fun hbuiltin => ⟨?_, fun type => add_of_isBuiltin type hbuiltin⟩,
    fun hbuiltin => ⟨?_, ?_⟩, isOk_add_iff, checkName_eq_ok_iff table name, ?_, ?_, ?_⟩
  · obtain ⟨type, htype⟩ := Option.isSome_iff_exists.mp hbuiltin
    rw [hresolve, htype]
    rfl
  · have hnone : builtin? name = none := by
      rw [isBuiltin, Option.isSome_eq_false_iff, Option.isNone_iff_eq_none] at hbuiltin
      exact hbuiltin
    rw [hresolve, hnone, Option.none_or]
  · rintro ⟨type, hadd⟩ other
    exact add_of_contains other hbuiltin (contains_run_of_mem hadd empty)
  · rw [← checkName_eq_ok_iff, checkName_eq_ok_iff_resolve?]
  · intro type htype later
    rw [resolve?_run, htype]
    rfl
  · rw [size_run]
    exact Nat.zero_add _

/-- A table with one struct type, after a builtin name and a second type for the struct's name have
been refused. -/
theorem names_resolve_for_good_light :
    let light : ShaderType := .struct ⟨"Light", []⟩
    let commands : List Command :=
      [.checkName "Light", .add "float" light, .add "Light" light, .resolve "Light",
        .add "Light" .void]
    let table := run commands empty
    table.resolve? "float" = builtin? "float" ∧
      add "float" light table = .refused table (.builtinShadowed "float") ∧
      table.resolve? "Light" = some light ∧
      add "Light" .void table = .refused table (.duplicateType "Light") ∧
      (run [.add "Light" .void] table).resolve? "Light" = some light ∧
      table.resolve? "Lamp" = none ∧ (add "Lamp" light table).result.isOk = true ∧
      table.size = 1 := by
  intro light commands table
  obtain ⟨hfloat, -⟩ := names_resolve_for_good commands "float"
  obtain ⟨-, hlight, -, -, -, hgood, hsize⟩ := names_resolve_for_good commands "Light"
  obtain ⟨-, hlamp, hadd, hcheck, hcontains, -⟩ := names_resolve_for_good commands "Lamp"
  obtain ⟨hfloatType, hfloatTaken⟩ := hfloat (by decide)
  obtain ⟨hlightType, hlightTaken⟩ := hlight (by decide)
  obtain ⟨hlampType, -⟩ := hlamp (by decide)
  have hmem : Command.add "Light" light ∈ commands := by simp [commands]
  refine ⟨hfloatType, hfloatTaken light, hlightType, hlightTaken ⟨light, hmem⟩ .void,
    hgood light hlightType _, hlampType, ?_, hsize⟩
  exact (hadd light).mpr (hcheck.mpr (hcontains.mpr hlampType))

end GlslEmit.TypeTable
