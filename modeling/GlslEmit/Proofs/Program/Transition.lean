/-
# Transitions of a program, and refused operations

An operation on a program tests a name, emits a text and takes the name.  The name is tested before
anything is written, and taking a tested name never fails, so that no operation is refused half
done.

* `Program.step_settles`: a command is refused without a trace, or it is accepted with a
  transition of the emitter;
* `Program.refused_unchanged`: whatever is refused, in whatever reachable state, leaves the
  whole state as it was and reports nothing.
-/
import GlslEmit.Proofs.Emitter.Transition
import GlslEmit.Proofs.Scope
import GlslEmit.Proofs.TypeTable
import GlslEmit.Program.Command

namespace GlslEmit

/-! ## The tables on their own -/

theorem TypeTable.add_settles (name : String) (type : ShaderType) (table : TypeTable) :
    (TypeTable.add name type).Settles table fun _ => True := by
  cases h : table.checkName name with
  | error e => exact Or.inl ⟨e, TypeTable.add_of_taken type h⟩
  | ok u => exact Or.inr ⟨_, _, _, TypeTable.add_of_free type h, trivial⟩

theorem Scope.declare_settles (v : Variable) (scope : Scope) :
    (Scope.declare v).Settles scope fun _ => True := by
  cases h : scope.checkName v.name with
  | error e => exact Or.inl ⟨e, Scope.declare_of_taken h⟩
  | ok u => exact Or.inr ⟨_, _, _, Scope.declare_of_free h, trivial⟩

namespace Program

/-- What a command asks of the emitter, once the names that it needs are free. -/
def Command.emission : Command → Emitter.Command
  | addStruct s => .declareStruct s
  | addVertexInput v => .declareVertexInput v
  | addFragmentOutput v => .declareFragmentOutput v
  | addBinding v => .declareBinding v
  | addUniform v => .declareUniform v
  | addAttachment v => .declareAttachment v
  | addVarying v producer consumer => .declareVarying v producer consumer
  | beginStage s => .beginStage s
  | endStage => .endStage
  | useIndex index => .perform (.unpack index)
  | direct c => c

/-- The sub-index that a command reads and provides for. -/
def Command.usedIndex? : Command → Option UInt32
  | useIndex index => some index
  | _ => none

/-- The largest of the sub-indices so far and a further one, if there is one. -/
def largerIndex (highest used : Option UInt32) : Option UInt32 :=
  match used, highest with
  | some index, some old => some (max old index)
  | some index, none => some index
  | none, _ => highest

/-- One accepted command: the emitter makes a transition, and the largest used sub-index is kept. -/
structure Transition (p : Program) (c : Command) (q : Program) : Prop where
  emitter : Emitter.Transition p.emitter c.emission q.emitter
  highestIndex : q.highestIndex = largerIndex p.highestIndex c.usedIndex?

section Parts

variable {p : Program} {α : Type}

/-- An emission settles as an operation on the program, whose other parts stay. -/
theorem emitting_settles {x : Action Emitter EmitError α} {P : Emitter → Prop}
    (h : x.Settles p.emitter P) :
    (emitting x).Settles p fun q => P q.emitter ∧ q = { p with emitter := q.emitter } :=
  h.within rfl fun _ ht => ⟨ht, rfl⟩

/-- Taking a free type name is not refused. -/
theorem registerType_accepted {name : String} (type : ShaderType)
    (h : p.types.checkName name = .ok ()) :
    registerType name type p =
      .accepted { p with types := p.types.extended name type } type
        [.typeRegistered name type] := by
  rw [registerType, Action.within, TypeTable.add_of_free type h]
  rfl

/-- Taking a free global name is not refused. -/
theorem registerGlobal_accepted {v : Variable} (h : p.scope.checkName v.name = .ok ()) :
    registerGlobal v p =
      .accepted { p with scope := p.scope.extended v } () [.globalDeclared v.name v.kind] := by
  rw [registerGlobal, Action.within, Scope.declare_of_free h]
  rfl

theorem ok_of_mapError {ε δ : Type} {x : Except ε Unit} {wrap : ε → δ} {u : Unit}
    (h : x.mapError wrap = .ok u) : x = .ok () := by
  cases x with
  | error e => cases h
  | ok u => rfl

/-- A global declaration settles with its emission: the name that was tested is still free. -/
theorem declareGlobal_settles (v : Variable) {x : Action Emitter EmitError α}
    {P : Emitter → Prop} (h : x.Settles p.emitter P) :
    (declareGlobal v x).Settles p fun q => P q.emitter ∧ q.highestIndex = p.highestIndex := by
  refine Action.Settles.check fun _ htest => (emitting_settles h).before fun q answer hq => ?_
  obtain ⟨hemitter, hq⟩ := hq
  -- the emission left the scope alone
  have hfree : q.scope.checkName v.name = .ok () := by
    rw [hq]
    exact ok_of_mapError htest
  refine ⟨_, answer, _, Action.bind_accepted (registerGlobal_accepted hfree) rfl, hemitter, ?_⟩
  rw [hq]

end Parts

/-! ## Every command settles -/

variable {p : Program}

theorem addStruct_settles (s : StructType) :
    (Program.addStruct s).Settles p (Transition p (.addStruct s)) := by
  refine Action.Settles.check fun _ htest =>
    (emitting_settles (Emitter.declareStruct_settles s)).before fun q _ hq => ?_
  obtain ⟨hemitter, hq⟩ := hq
  -- the emission left the type table alone
  have hfree : q.types.checkName s.name = .ok () := by
    rw [hq]
    exact ok_of_mapError htest
  refine ⟨_, _, _, registerType_accepted (.struct s) hfree, hemitter, ?_⟩
  rw [hq]
  rfl

/-- A global declaration is a transition of its emission. -/
theorem global_settles {c : Command} {α : Type} (v : Variable) {x : Action Emitter EmitError α}
    (hx : x.Settles p.emitter (Emitter.Transition p.emitter c.emission))
    (hc : c.usedIndex? = none) : (declareGlobal v x).Settles p (Transition p c) :=
  (declareGlobal_settles v hx).mono fun q hq => ⟨hq.1, by rw [hc]; exact hq.2⟩

/-- An emission without a name is a transition. -/
theorem emission_settles {c : Command} {α : Type} {x : Action Emitter EmitError α}
    (hx : x.Settles p.emitter (Emitter.Transition p.emitter c.emission))
    (hc : c.usedIndex? = none) : (emitting x).Settles p (Transition p c) :=
  (emitting_settles hx).mono fun q hq => ⟨hq.1, by rw [hc, hq.2]; rfl⟩

theorem useIndex_settles (hp : p.emitter.WellFormed) (index : UInt32) :
    (Program.useIndex index).Settles p (Transition p (.useIndex index)) := by
  refine (emitting_settles (Emitter.perform_settles hp (.unpack index))).before fun q _ hq => ?_
  obtain ⟨hemitter, hq⟩ := hq
  refine ⟨_, _, _, rfl, hemitter, ?_⟩
  rw [hq]
  cases p.highestIndex <;> rfl

/-- A command is refused without a trace, or accepted with a transition. -/
theorem step_settles : Refines step (fun p => p.emitter.WellFormed) Transition := by
  intro c p hp
  cases c with
  | addStruct s => exact (addStruct_settles s).answer _
  | addVertexInput v =>
    exact (global_settles _ (Emitter.declareVertexInput_settles v) rfl).answer _
  | addFragmentOutput v =>
    exact (global_settles _ (Emitter.declareFragmentOutput_settles v) rfl).answer _
  | addBinding v => exact (global_settles _ (Emitter.declareBinding_settles v) rfl).answer _
  | addUniform v => exact (global_settles _ (Emitter.declareUniform_settles v) rfl).answer _
  | addAttachment v => exact (global_settles _ (Emitter.declareAttachment_settles v) rfl).answer _
  | addVarying v producer consumer =>
    exact (global_settles _ (Emitter.declareVarying_settles v producer consumer) rfl).answer _
  | beginStage s => exact (emission_settles (Emitter.beginStage_settles s) rfl).answer _
  | endStage => exact (emission_settles (Emitter.endStage_settles hp) rfl).answer _
  | useIndex index => exact (useIndex_settles hp index).answer _
  | direct c => exact emission_settles (Emitter.step_settles c p.emitter hp) rfl

/-! ## Reachable states -/

/-- A state that some commands lead to from a new program. -/
def Reachable (p : Program) : Prop :=
  ∃ sizes commands, p = run commands (new sizes)

/-- A run is the chain of its accepted commands. -/
theorem chain_run {p : Program} (hp : p.emitter.WellFormed) (commands : List Command) :
    Chain Transition p (Action.accepted step commands p) (run commands p) :=
  chain_accepted step_settles (fun hp h => h.emitter.wellFormed hp) commands hp

theorem Reachable.wellFormed {p : Program} (h : p.Reachable) : p.emitter.WellFormed := by
  obtain ⟨sizes, commands, rfl⟩ := h
  exact run_keeps step_settles (fun hp h => h.emitter.wellFormed hp) commands
    (Emitter.wellFormed_new sizes)

/-! ## Refused operations -/

/-- The emitter of a finished program: it has the push-constant block. -/
def finished (p : Program) : Emitter :=
  match p.highestIndex with
  | none => p.emitter
  | some max => p.emitter.declare (.pushConstants (subIndexFields max))

/-- Finishing adds the push-constant block or nothing. -/
theorem declareUsedIndices_settles (p : Program) :
    declareUsedIndices.Settles p fun q => q.emitter = p.finished := by
  cases hmax : p.highestIndex with
  | none =>
    exact Or.inr ⟨p, (), [], by rw [declareUsedIndices, hmax], by rw [finished, hmax]⟩
  | some max =>
    have hblock := (emitting_settles (Emitter.declareIndices_settles (g := p.emitter) max)).answer
      fun _ => ()
    rcases hblock with ⟨e, he⟩ | ⟨q, a, log, ha, ht, -⟩
    · exact Or.inl ⟨e, by rw [declareUsedIndices, hmax]; exact he⟩
    · refine Or.inr ⟨q, a, log, by rw [declareUsedIndices, hmax]; exact ha, ?_⟩
      rw [finished, hmax]
      exact ht.declareIndices_state

/-- Finishing a program is refused before anything is added to it. -/
theorem build_settles (p : Program) : build.Settles p fun q => q.emitter = p.finished :=
  Action.Settles.check fun _ _ =>
    (declareUsedIndices_settles p).before fun q _ hq => ⟨q, _, _, rfl, hq⟩

/-- **A refusal changes nothing.**  Whatever operation on a reachable program or emitter is refused,
the whole state is as before and nothing is reported; the same holds of the type table and of the
scope on their own.  An accepted emission is never followed by a refused registration, and the
closing brace of a block is never refused after the depth was lowered. -/
theorem refused_unchanged :
    (∀ p : Program, p.Reachable → (∀ c, (step c).Atomic p) ∧ build.Atomic p) ∧
    (∀ g : Emitter, g.Reachable → ∀ c, (Emitter.step c).Atomic g) ∧
    (∀ (table : TypeTable) name type, (TypeTable.add name type).Atomic table) ∧
    (∀ (scope : Scope) v, (Scope.declare v).Atomic scope) ∧
    (∀ (p q : Program) (α : Type) (x : Action Emitter EmitError α) a log,
      emitting x p = .accepted q a log →
        (∀ v : Variable, p.scope.checkName v.name = .ok () →
          (registerGlobal v q).result = .ok ()) ∧
        ∀ s : StructType, p.types.checkName s.name = .ok () →
          (registerType s.name (.struct s) q).result = .ok (.struct s)) ∧
    (∀ g : Emitter, g.Reachable → g.isActive = true → g.depth > 1 →
      (Emitter.writeLine Statement.closeBlock.operation .close
        { g with depth := g.depth - 1 }).result = .ok ()) := by
  refine ⟨fun p hp => ⟨fun c => ?_, ?_⟩, fun g hg c => ?_, fun table name type => ?_,
    fun scope v => ?_, fun p q α x a log hx => ?_, fun g hg hactive _ => ?_⟩
  · exact (step_settles c p hp.wellFormed).atomic
  · exact (build_settles p).atomic
  · exact (Emitter.step_settles c g hg.wellFormed).atomic
  · exact (TypeTable.add_settles name type table).atomic
  · exact (Scope.declare_settles v scope).atomic
  · -- the emission changed the emitter alone, so the tested name is still free
    have hq : { p with emitter := (x p.emitter).state } = q := congrArg Outcome.state hx
    have hscope : q.scope = p.scope := by rw [← hq]
    have htypes : q.types = p.types := by rw [← hq]
    refine ⟨fun v hfree => ?_, fun s hfree => ?_⟩
    · rw [registerGlobal_accepted (by rw [hscope]; exact hfree)]
      rfl
    · rw [registerType_accepted (.struct s) (by rw [htypes]; exact hfree)]
      rfl
  · -- the body of the active stage does not depend on the depth
    obtain ⟨s, b, hb⟩ := hg.wellFormed.openBody hactive
    have hb' : { g with depth := g.depth - 1 }.openBody? = some (s, b) := hb
    rw [Emitter.writeLine_of_body hb']
    rfl

/-- A stage that cannot end because a block is open, a brace too many, a taken type name and a taken
global name are refused without a trace; a free name is taken after its emission. -/
theorem refused_unchanged_sample :
    let opened : List Command := [.beginStage .vertex, .direct (.perform (.openBlock .otherwise))]
    let p := run opened (new .standard)
    let g := Emitter.run [.beginStage .vertex] (.new .standard)
    let v : Variable := ⟨"uv", .numeric (.vector .float 2), 1, .varying false⟩
    let scope := (Scope.declare v .empty).state
    let emission := Emitter.declareVarying v .vertex .fragment
    ((step .endStage p).result = .error (.emission (.sequence (.unclosedBlocks .vertex 1))) ∧
      (step .endStage p).state = p ∧ (step .endStage p).log = []) ∧
    ((Emitter.step (.perform .closeBlock) g).result = .error (.sequence .noOpenBlock) ∧
      (Emitter.step (.perform .closeBlock) g).state = g ∧
      (Emitter.step (.perform .closeBlock) g).log = []) ∧
    ((TypeTable.add "float" .void .empty).result = .error (.builtinShadowed "float") ∧
      (TypeTable.add "float" .void .empty).state = .empty) ∧
    ((Scope.declare v scope).result = .error (.duplicateGlobal "uv") ∧
      (Scope.declare v scope).state = scope) ∧
    (p.scope.checkName v.name = .ok () ∧
      (registerGlobal v (emitting emission p).state).result = .ok ()) ∧
    (p.emitter.depth > 1 ∧
      (Emitter.writeLine "emit_block_close" .close
        { p.emitter with depth := p.emitter.depth - 1 }).result = .ok ()) := by
  intro opened p g v scope emission
  obtain ⟨hprogram, hemitter, htypes, hscope, hregister, hclose⟩ := refused_unchanged
  have htaken : (Scope.declare v scope).result = .error (.duplicateGlobal "uv") := by
    simp [scope, v, Scope.declare, Scope.checkName, Scope.empty, Outcome.accepted, Outcome.refused]
  refine ⟨⟨rfl, (hprogram p ⟨_, _, rfl⟩).1 .endStage _ rfl⟩,
    ⟨rfl, hemitter g ⟨_, _, rfl⟩ (.perform .closeBlock) _ rfl⟩,
    ⟨rfl, (htypes .empty "float" .void _ rfl).1⟩, ⟨htaken, (hscope scope v _ htaken).1⟩,
    ⟨rfl, (hregister p _ _ emission _ _ rfl).1 v rfl⟩, ⟨by decide, ?_⟩⟩
  exact hclose p.emitter ⟨.standard, [.beginStage .vertex, .perform (.openBlock .otherwise)], rfl⟩
    rfl (by decide)

end Program

end GlslEmit
