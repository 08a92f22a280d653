/-
# Taking type names

Only a struct takes a type name, and it does so under a name that is free.  Every other command
leaves the type table alone, accepted or refused.

* `Program.step_keeps_types`: a command that adds no struct keeps the type table;
* `Program.Registration` is a transition together with what it does to the type table
  (`Program.step_registers`).
-/
import GlslEmit.Proofs.Program.Transition

namespace GlslEmit

namespace Program

/-! ## Commands and the type table -/

/-- The struct that a command adds to the type table. -/
def Command.addedStruct? : Command → Option StructType
  | addStruct s => some s
  | _ => none

theorem Command.addedStruct?_eq_some_iff {c : Command} {s : StructType} :
    c.addedStruct? = some s ↔ c = .addStruct s := by
  cases c <;> simp [addedStruct?]

section Keeping

variable {α : Type}

theorem emitting_keeps_types (x : Action Emitter EmitError α) : (emitting x).Keeps (·.types) :=
  fun _ => rfl

theorem declareGlobal_keeps_types (v : Variable) (x : Action Emitter EmitError α) :
    (declareGlobal v x).Keeps (·.types) :=
  (Action.check_keeps _).bind fun _ => (emitting_keeps_types x).bind fun answer =>
    Action.Keeps.answer (x := registerGlobal v) (fun _ => rfl) fun _ => answer

/-- A command that adds no struct keeps the type table, accepted or refused. -/
theorem step_keeps_types {c : Command} (hc : c.addedStruct? = none) : (step c).Keeps (·.types) := by
  cases c with
  | addStruct s => cases hc
  | addVertexInput v => exact (declareGlobal_keeps_types _ _).answer _
  | addFragmentOutput v => exact (declareGlobal_keeps_types _ _).answer _
  | addBinding v => exact (declareGlobal_keeps_types _ _).answer _
  | addUniform v => exact (declareGlobal_keeps_types _ _).answer _
  | addAttachment v => exact (declareGlobal_keeps_types _ _).answer _
  | addVarying v producer consumer => exact (declareGlobal_keeps_types _ _).answer _
  | beginStage s => exact (emitting_keeps_types _).answer _
  | endStage => exact (emitting_keeps_types _).answer _
  | useIndex index =>
    exact ((emitting_keeps_types _).bind fun _ => fun _ => rfl).answer _
  | direct c => exact emitting_keeps_types _

end Keeping

variable {p q : Program}

/-- A struct is accepted under a free name, which means the struct from then on. -/
theorem addStruct_registers (s : StructType) :
    (Program.addStruct s).Settles p fun q => p.types.checkName s.name = .ok () ∧
      q.types = ⟨p.types.added.insert s.name (.struct s)⟩ := by
  refine Action.Settles.check fun _ htest =>
    (emitting_settles (Emitter.declareStruct_settles s)).before fun q _ hq => ?_
  have hfree := ok_of_mapError htest
  have htypes : q.types = p.types := by rw [hq.2]
  refine ⟨_, _, _, registerType_accepted (.struct s) (htypes ▸ hfree), hfree, ?_⟩
  rw [htypes]
  rfl

/-- One accepted command with what it does to the type table. -/
structure Registration (p : Program) (c : Command) (q : Program) : Prop where
  transition : Transition p c q
  unregistered : c.addedStruct? = none → q.types = p.types
  registered : ∀ s, c.addedStruct? = some s → p.types.checkName s.name = .ok () ∧
    q.types = ⟨p.types.added.insert s.name (.struct s)⟩

/-- A command is refused without a trace, or accepted with a registration. -/
theorem step_registers : Refines step (fun p => p.emitter.WellFormed) Registration := by
  intro c p hp
  have hstep := step_settles c p hp
  cases hc : c.addedStruct? with
  | none =>
    rcases hstep with hrefused | ⟨q, a, log, ha, hq⟩
    · exact Or.inl hrefused
    · have htypes := step_keeps_types hc p
      rw [ha] at htypes
      exact Or.inr ⟨q, a, log, ha, hq, fun _ => htypes, fun s hs => by rw [hc] at hs; cases hs⟩
  | some s =>
    obtain rfl := Command.addedStruct?_eq_some_iff.mp hc
    refine (hstep.and ((addStruct_registers s).answer _)).mono fun q hq => ?_
    refine ⟨hq.1, fun hnone => ?_, fun t ht => ?_⟩
    · cases hnone
    · cases ht
      exact hq.2

end Program

end GlslEmit
