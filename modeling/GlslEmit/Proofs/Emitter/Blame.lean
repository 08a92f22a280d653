/-
# What a refusal blames

A refused command names its cause.  Declarations are refused for what they declare, and never for
the moment at which they are called, except that a value is passed from a stage to a later one.
That no stage is active is the cause only while this is so: the active stage always has a body,
also between the two writes of one command.

* `structDeclaration_error` and its companions: what is declared wrongly is no error of sequence;
* `Emitter.step_blamesOther` and `Emitter.perform_blamesOther`: commands that do not blame the lack
  of an active stage;
* `Emitter.idle_of_stageInactive`: that error tells the truth.
-/
import GlslEmit.Proofs.Emitter.Declaration
import GlslEmit.Proofs.Emitter.Region

namespace GlslEmit

/-! ## Refusals that are not about the active stage -/

section Declarations

variable {e : EmitError}

theorem memberFields_error {owner : String} {members : List StructMember}
    (h : memberFields owner members = .error e) : e.isSequenceError = false := by
  obtain ⟨before, m, after, -, -, hm⟩ := memberFields_eq_error_iff.mp h
  rw [memberField] at hm
  split at hm <;> cases hm
  rfl

theorem structDeclaration_error {s : StructType} (h : structDeclaration s = .error e) :
    e.isSequenceError = false := by
  rw [structDeclaration] at h
  cases hfields : memberFields s.name s.members with
  | error e' =>
    rw [hfields] at h
    cases h
    exact memberFields_error hfields
  | ok fields =>
    rw [hfields] at h
    cases h

theorem uniformDeclaration_error {v : ResourceVariable} (h : uniformDeclaration v = .error e) :
    e.isSequenceError = false := by
  rw [uniformDeclaration] at h
  split at h
  · split at h <;> cases h
    rfl
  · cases h
    rfl

theorem bindingForm_error {sizes : TableSizes} {id : UInt32} {v : ResourceVariable}
    (h : bindingForm sizes id v = .error e) : e.isSequenceError = false := by
  rw [bindingForm] at h
  split at h
  · cases h
    rfl
  · cases h
    rfl
  · split at h
    · cases h
      rfl
    · split at h
      · split at h <;> cases h
        rfl
      · cases h

theorem locatedValue_error {place : String} {direction : Direction} {v : InterfaceVariable}
    (h : locatedValue place direction v = .error e) : e.isSequenceError = false := by
  rw [locatedValue] at h
  split at h <;> cases h
  rfl

theorem Statement.line_error {statement : Statement} (h : statement.line = .error e) :
    e.isSequenceError = false := by
  cases statement with
  | assign left operator right => cases h
  | openBlock o => cases h
  | closeBlock => cases h
  | _ =>
    rw [Statement.line] at h
    split at h <;> cases h
    rfl

end Declarations

namespace Emitter

variable {g g' : Emitter} {c : Command} {s : Stage} {b : Body}

/-- An error other than the one that no stage is active. -/
def BlamesOther (e : EmitError) : Prop := ∀ operation, e ≠ .sequence (.stageInactive operation)

theorem blamesOther_of_isSequenceError {e : EmitError} (h : e.isSequenceError = false) :
    BlamesOther e := by
  rintro operation rfl
  cases h

theorem writeStatement_blamesOther (body : g.openBody? = some (s, b)) (statement : Statement) :
    (writeStatement statement).FailsOnly g BlamesOther := by
  refine Action.FailsOnly.congr (.check ?_ ?_) (bind_of_requireActive body _ _)
  · exact fun e he => blamesOther_of_isSequenceError (Statement.line_error he)
  · exact fun line _ => .of_accepted (writeLine_of_body body _ line)

/-- While a stage is active, a statement is not refused for the lack of one. -/
theorem perform_blamesOther (body : g.openBody? = some (s, b)) (statement : Statement) :
    (perform statement).FailsOnly g BlamesOther := by
  cases statement with
  | declare v => exact writeStatement_blamesOther body _
  | assign left operator right => exact writeStatement_blamesOther body _
  | store template value => exact writeStatement_blamesOther body _
  | unpack index =>
    by_cases small : index < maxSubIndices
    · by_cases known : g.unpacked.contains index = true
      · exact .of_accepted (unpackAgain_accepted small known body)
      · exact .of_accepted (unpackFirst_accepted small known body)
    · refine Action.FailsOnly.congr (.check ?_ ?_) (bind_of_requireActive body _ _)
      · exact fun e he => blamesOther_of_isSequenceError (Statement.line_error he)
      · intro line hline
        rw [Statement.line, if_neg small] at hline
        cases hline
  | openBlock o => exact .of_accepted (enterBlock_accepted o body)
  | closeBlock =>
    by_cases nested : g.depth > 1
    · exact .of_accepted (leaveBlock_accepted body nested)
    · refine Action.FailsOnly.congr (.check ?_ ?_) (bind_of_requireActive body _ _)
      · intro e he operation hinactive
        rw [if_neg nested, hinactive] at he
        cases he
      · intro _ htest
        rw [if_neg nested] at htest
        cases htest

theorem endStage_blamesOther (body : g.openBody? = some (s, b)) :
    endStage.FailsOnly g BlamesOther := by
  have hs := (openBody?_eq_some_iff.mp body).1
  refine .check (fun e he => ?_) fun t _ => .check (fun e he => ?_) fun _ _ => ?_
  · rw [hs] at he
    cases he
  · intro operation hinactive
    split at he <;> cases he
    cases hinactive
  · refine .of_accepted (?_ : _ = Outcome.accepted (g.ended s b) s [.stageEnded s])
    simp only [body]

theorem beginStage_blamesOther (s : Stage) : (beginStage s).FailsOnly g BlamesOther := by
  cases hidle : g.active with
  | none => exact .of_accepted (beginStage_accepted hidle)
  | some a =>
    refine .of_refused (t := g) (e := .sequence (.stageAlreadyActive a s)) ?_ ?_
    · rw [beginStage, hidle]
    · rintro operation ⟨⟩

theorem declareBinding_blamesOther (v : ResourceVariable) :
    (declareBinding v).FailsOnly g BlamesOther := by
  cases form : bindingForm g.sizes g.nextBlock v with
  | error e =>
    refine .of_refused (t := g) (e := e) (by rw [declareBinding, form]) ?_
    exact blamesOther_of_isSequenceError (bindingForm_error form)
  | ok form' =>
    cases form' with
    | block block => exact .of_accepted (declareBlock_accepted form)
    | table t =>
      by_cases declared : g.tables.contains t.name = true
      · exact .of_accepted (shareTable_accepted form declared)
      · exact .of_accepted (declareTable_accepted form declared)

theorem declareVarying_blamesOther (v : Variable) (producer consumer : Stage) :
    (declareVarying v producer consumer).FailsOnly g BlamesOther := by
  by_cases order : producer < consumer
  · cases form : varyingToken? v with
    | some token => exact .of_accepted (declareVarying_accepted order form)
    | none =>
      refine .of_refused (t := g) (by rw [declareVarying, if_pos order, form]) ?_
      exact blamesOther_of_isSequenceError rfl
  · refine .of_refused (t := g) (e := .sequence (.invalidStagePair producer consumer)) ?_ ?_
    · rw [declareVarying, if_neg order]
    · rintro operation ⟨⟩

/-- A declaration is refused for what it declares, and not for the lack of an active stage. -/
theorem step_blamesOther (hc : c.region ≠ .bodies) : (step c).FailsOnly g BlamesOther := by
  have hrefused {α : Type} {x : Action Emitter EmitError α} {e : EmitError}
      (hx : x g = .refused g e) (he : e.isSequenceError = false) : x.FailsOnly g BlamesOther :=
    .of_refused hx (blamesOther_of_isSequenceError he)
  cases c with
  | beginStage t => exact absurd rfl hc
  | endStage => exact absurd rfl hc
  | perform statement => exact absurd rfl hc
  | declareBinding v => exact (declareBinding_blamesOther v).answer _
  | declareVarying v producer consumer =>
    exact (declareVarying_blamesOther v producer consumer).answer _
  | declareStruct v =>
    refine Action.FailsOnly.answer ?_ _
    cases form : structDeclaration v with
    | ok d => exact .of_accepted (declareStruct_accepted form)
    | error e => exact hrefused (by rw [declareStruct, form]) (structDeclaration_error form)
  | declareUniform v =>
    refine Action.FailsOnly.answer ?_ _
    by_cases first : g.uniformDeclared = true
    · exact hrefused (by rw [declareUniform, if_pos first]) rfl
    · cases form : uniformDeclaration v with
      | ok d => exact .of_accepted (declareUniform_accepted first form)
      | error e =>
        exact hrefused (by rw [declareUniform, if_neg first, form]) (uniformDeclaration_error form)
  | declareIndices max =>
    refine Action.FailsOnly.answer ?_ _
    by_cases small : max < maxSubIndices
    · exact .of_accepted (declareIndices_accepted small)
    · exact hrefused (by rw [declareIndices, if_neg small]) rfl
  | declareVertexInput v =>
    refine Action.FailsOnly.answer ?_ _
    cases form : locatedValue "vertex input" .input v with
    | ok value => exact .of_accepted (declareVertexInput_accepted form)
    | error e => exact hrefused (by rw [declareVertexInput, form]) (locatedValue_error form)
  | declareFragmentOutput v =>
    refine Action.FailsOnly.answer ?_ _
    cases form : locatedValue "fragment output" .output v with
    | ok value => exact .of_accepted (declareFragmentOutput_accepted form)
    | error e => exact hrefused (by rw [declareFragmentOutput, form]) (locatedValue_error form)
  | declareAttachment v =>
    refine Action.FailsOnly.answer ?_ _
    cases form : v.component.attachmentToken? with
    | some token => exact .of_accepted (declareAttachment_accepted form)
    | none => exact hrefused (by rw [declareAttachment, form]) rfl

/-- The error that no stage is active tells the truth: while a stage is active it has a body, also
between the two writes of one command, and no command is refused for that reason. -/
theorem idle_of_stageInactive (hg : g.WellFormed) {operation : String}
    (h : (step c g).result = .error (.sequence (.stageInactive operation))) : g.active = none := by
  cases hactive : g.active with
  | none => rfl
  | some s =>
    obtain ⟨b, body⟩ := hg.openBody_of_active hactive
    have hother : (step c).FailsOnly g BlamesOther := by
      by_cases hc : c.region = .bodies
      · cases c with
        | beginStage t => exact (beginStage_blamesOther t).answer _
        | endStage => exact (endStage_blamesOther body).answer _
        | perform statement => exact (perform_blamesOther body statement).answer _
        | _ => cases hc
      · exact step_blamesOther hc
    exact absurd rfl (hother _ h operation)

end Emitter

end GlslEmit
