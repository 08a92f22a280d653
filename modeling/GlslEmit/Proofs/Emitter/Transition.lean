/-
# Transitions of an emitter

What an accepted command needs of the state, and which state it leaves, said once for all commands.

* `Emitter.Transition` is the relation; a command that is accepted is one of its steps
  (`Emitter.step_settles`), and each of its steps is accepted (`Transition.step_accepted`);
* `Emitter.WellFormed` holds in every reachable state: the active stage has a body, and the next
  line is at least one deep.
-/
import GlslEmit.Proofs.History
import GlslEmit.Emitter.Command

namespace GlslEmit

/-- Whether a statement writes a line and changes nothing else. -/
def Statement.isPlain : Statement → Bool
  | declare _ => true
  | assign _ _ _ => true
  | store _ _ => true
  | unpack _ => false
  | openBlock _ => false
  | closeBlock => false

namespace Emitter

/-- The emitter with a value that is passed from one stage to another, declared in both headers at
the next location. -/
def withVarying (g : Emitter) (v : Variable) (producer consumer : Stage) (token : String) :
    Emitter :=
  let declared := g.declareIn producer
    (.located (varyingValue g.nextLocation .output producer token v))
  { declared.declareIn consumer
      (.located (varyingValue g.nextLocation .input consumer token v)) with
    nextLocation := g.nextLocation + 1 }

/-- Only the headers of the two stages grow, each by the declaration of its own side. -/
theorem header_withVarying (g : Emitter) (v : Variable) (producer consumer : Stage)
    (token : String) (s : Stage) :
    ((g.withVarying v producer consumer token).outputs.get s).header =
      (g.outputs.get s).header ++
        (if producer = s then
          [.located (varyingValue g.nextLocation .output producer token v)] else []) ++
        (if consumer = s then
          [.located (varyingValue g.nextLocation .input consumer token v)] else []) := by
  rw [withVarying]
  simp only [header_declareIn]

/-- The accepted commands: what each needs of the state before, and the state that it leaves. -/
inductive Transition (g : Emitter) : Command → Emitter → Prop
  | beginStage {s : Stage} (idle : g.active = none) : Transition g (.beginStage s) (g.opened s)
  | endStage {s : Stage} {b : Body} (body : g.openBody? = some (s, b)) (flat : ¬ g.depth > 1) :
      Transition g .endStage (g.ended s b)
  | declareStruct {s : StructType} {d : Declaration} (form : structDeclaration s = .ok d) :
      Transition g (.declareStruct s) (g.declare d)
  | declareUniform {v : ResourceVariable} {d : Declaration} (first : ¬ g.uniformDeclared = true)
      (form : uniformDeclaration v = .ok d) :
      Transition g (.declareUniform v) { g.declare d with uniformDeclared := true }
  | declareBlock {v : ResourceVariable} {b : BufferBlock}
      (form : bindingForm g.sizes g.nextBlock v = .ok (.block b)) :
      Transition g (.declareBinding v)
        { g.declare (.bufferBlock b) with nextBlock := g.nextBlock + 1 }
  | declareTable {v : ResourceVariable} {t : ResourceTable}
      (form : bindingForm g.sizes g.nextBlock v = .ok (.table t))
      (fresh : ¬ g.tables.contains t.name = true) :
      Transition g (.declareBinding v)
        { g.declare (.table t) with tables := g.tables.insert t.name }
  | shareTable {v : ResourceVariable} {t : ResourceTable}
      (form : bindingForm g.sizes g.nextBlock v = .ok (.table t))
      (declared : g.tables.contains t.name = true) : Transition g (.declareBinding v) g
  | declareIndices {max : UInt32} (small : max < maxSubIndices) :
      Transition g (.declareIndices max) (g.declare (.pushConstants (subIndexFields max)))
  | declareVertexInput {v : InterfaceVariable} {value : LocatedValue}
      (form : locatedValue "vertex input" .input v = .ok value) :
      Transition g (.declareVertexInput v) (g.declareIn .vertex (.located value))
  | declareFragmentOutput {v : InterfaceVariable} {value : LocatedValue}
      (form : locatedValue "fragment output" .output v = .ok value) :
      Transition g (.declareFragmentOutput v) (g.declareIn .fragment (.located value))
  | declareAttachment {v : AttachmentVariable} {token : String}
      (form : v.component.attachmentToken? = some token) :
      Transition g (.declareAttachment v)
        (g.declareIn .fragment (.attachment v.index token v.name))
  | declareVarying {v : Variable} {producer consumer : Stage} {token : String}
      (order : producer < consumer) (form : varyingToken? v = some token) :
      Transition g (.declareVarying v producer consumer) (g.withVarying v producer consumer token)
  | writeStatement {statement : Statement} {line : Line} {s : Stage} {b : Body}
      (plain : statement.isPlain = true) (form : statement.line = .ok line)
      (body : g.openBody? = some (s, b)) :
      Transition g (.perform statement) (g.setBody s (b.write g.depth line))
  | unpackFirst {index : UInt32} {s : Stage} {b : Body} (small : index < maxSubIndices)
      (fresh : ¬ g.unpacked.contains index = true) (body : g.openBody? = some (s, b)) :
      Transition g (.perform (.unpack index))
        { g.setBody s (b.write g.depth (.unpack index)) with
          unpacked := (g.unpacked.insert index).2 }
  | unpackAgain {index : UInt32} {s : Stage} {b : Body} (small : index < maxSubIndices)
      (known : g.unpacked.contains index = true) (body : g.openBody? = some (s, b)) :
      Transition g (.perform (.unpack index)) g
  | enterBlock {o : Opener} {s : Stage} {b : Body} (body : g.openBody? = some (s, b)) :
      Transition g (.perform (.openBlock o))
        { g.setBody s (b.write g.depth (.opener o)) with depth := g.depth + 1 }
  | leaveBlock {s : Stage} {b : Body} (body : g.openBody? = some (s, b)) (nested : g.depth > 1) :
      Transition g (.perform .closeBlock)
        { g.setBody s (b.write (g.depth - 1) .close) with depth := g.depth - 1 }

/-- The active stage has a body, and its next line is at least one deep. -/
structure WellFormed (g : Emitter) : Prop where
  body : ∀ {s}, g.active = some s → ∃ b, (g.outputs.get s).body = some b
  depth : ∀ {s}, g.active = some s → 0 < g.depth

theorem wellFormed_new (sizes : TableSizes) : (new sizes).WellFormed where
  body h := by cases h
  depth h := by cases h

/-- Replacing a body takes no body away. -/
theorem WellFormed.body_setBody {g : Emitter} (hg : g.WellFormed) {s t : Stage} {b : Body}
    (hs : g.active = some s) : ∃ b', ((g.setBody t b).outputs.get s).body = some b' := by
  rw [Emitter.body_setBody]
  split
  · exact ⟨b, rfl⟩
  · exact hg.body hs

theorem WellFormed.openBody_of_active {g : Emitter} (hg : g.WellFormed) {s : Stage}
    (hs : g.active = some s) : ∃ b, g.openBody? = some (s, b) := by
  obtain ⟨b, hb⟩ := hg.body hs
  exact ⟨b, openBody?_eq_some_iff.mpr ⟨hs, hb⟩⟩

/-- While a stage is active there is a body to write to. -/
theorem WellFormed.openBody {g : Emitter} (hg : g.WellFormed) (h : g.isActive = true) :
    ∃ s b, g.openBody? = some (s, b) := by
  obtain ⟨s, hs⟩ := Option.isSome_iff_exists.mp h
  obtain ⟨b, hb⟩ := hg.openBody_of_active hs
  exact ⟨s, b, hb⟩

/-! ## What operations are accepted with -/

section Accepted

variable {g : Emitter} {s : Stage} {b : Body}

theorem beginStage_accepted (idle : g.active = none) :
    beginStage s g = .accepted (g.opened s) ()
      ((if g.isActivated s then [.bodyDiscarded s] else []) ++ [.stageBegun s]) := by
  rw [beginStage, idle]

theorem endStage_accepted (body : g.openBody? = some (s, b)) (flat : ¬ g.depth > 1) :
    endStage g = .accepted (g.ended s b) s [.stageEnded s] := by
  have hactive := (openBody?_eq_some_iff.mp body).1
  refine Eq.trans (Action.bind_of_check (a := s) (by rw [hactive]) _) ?_
  refine Eq.trans (Action.bind_of_check (a := ()) ?_ _) ?_
  · exact if_neg flat
  · simp only [body]

theorem declareStruct_accepted {v : StructType} {d : Declaration}
    (form : structDeclaration v = .ok d) :
    declareStruct v g = .accepted (g.declare d) () [.structEmitted v.name] := by
  rw [declareStruct, form]

theorem declareUniform_accepted {v : ResourceVariable} {d : Declaration}
    (first : ¬ g.uniformDeclared = true) (form : uniformDeclaration v = .ok d) :
    declareUniform v g = .accepted { g.declare d with uniformDeclared := true } () [] := by
  rw [declareUniform, if_neg first, form]

section Binding

variable {v : ResourceVariable} {t : ResourceTable}

theorem declareBlock_accepted {block : BufferBlock}
    (form : bindingForm g.sizes g.nextBlock v = .ok (.block block)) :
    declareBinding v g =
      .accepted { g.declare (.bufferBlock block) with nextBlock := g.nextBlock + 1 } ()
        [.bindingEmitted v.name v.type] := by
  rw [declareBinding, form]

theorem declareTable_accepted (form : bindingForm g.sizes g.nextBlock v = .ok (.table t))
    (fresh : ¬ g.tables.contains t.name = true) :
    declareBinding v g =
      .accepted { g.declare (.table t) with tables := g.tables.insert t.name } ()
        [.bindingEmitted v.name v.type] := by
  simp only [declareBinding, form, if_neg fresh]

theorem shareTable_accepted (form : bindingForm g.sizes g.nextBlock v = .ok (.table t))
    (declared : g.tables.contains t.name = true) :
    declareBinding v g = .accepted g () [.tableReused v.name t.name] := by
  simp only [declareBinding, form, if_pos declared]

end Binding

theorem declareIndices_accepted {max : UInt32} (small : max < maxSubIndices) :
    declareIndices max g =
      .accepted (g.declare (.pushConstants (subIndexFields max))) (subIndexFields max) [] := by
  rw [declareIndices, if_pos small]

theorem declareVertexInput_accepted {v : InterfaceVariable} {value : LocatedValue}
    (form : locatedValue "vertex input" .input v = .ok value) :
    declareVertexInput v g = .accepted (g.declareIn .vertex (.located value)) () [] := by
  rw [declareVertexInput, form]

theorem declareFragmentOutput_accepted {v : InterfaceVariable} {value : LocatedValue}
    (form : locatedValue "fragment output" .output v = .ok value) :
    declareFragmentOutput v g = .accepted (g.declareIn .fragment (.located value)) () [] := by
  rw [declareFragmentOutput, form]

theorem declareAttachment_accepted {v : AttachmentVariable} {token : String}
    (form : v.component.attachmentToken? = some token) :
    declareAttachment v g =
      .accepted (g.declareIn .fragment (.attachment v.index token v.name)) () [] := by
  rw [declareAttachment, form]

theorem declareVarying_accepted {v : Variable} {producer consumer : Stage} {token : String}
    (order : producer < consumer) (form : varyingToken? v = some token) :
    declareVarying v producer consumer g =
      .accepted (g.withVarying v producer consumer token) g.nextLocation [] := by
  rw [declareVarying, if_pos order, form]
  rfl

theorem writeLine_of_body (body : g.openBody? = some (s, b)) (operation : String) (line : Line) :
    writeLine operation line g = .accepted (g.setBody s (b.write g.depth line)) () [] := by
  rw [writeLine, body]

/-- While a stage is active, the test for one leaves no trace. -/
theorem bind_of_requireActive {α : Type} (body : g.openBody? = some (s, b)) (operation : String)
    (f : Unit → Action Emitter EmitError α) : (requireActive operation >>= f) g = f () g := by
  have hactive : g.isActive = true := by
    rw [isActive, (openBody?_eq_some_iff.mp body).1]
    rfl
  refine Eq.trans (Action.bind_of_check (a := ()) ?_ f) rfl
  exact if_pos hactive

theorem perform_of_plain {statement : Statement} (plain : statement.isPlain = true) :
    perform statement = writeStatement statement := by
  cases statement <;> first | rfl | cases plain

theorem writeStatement_accepted {statement : Statement} {line : Line}
    (plain : statement.isPlain = true) (form : statement.line = .ok line)
    (body : g.openBody? = some (s, b)) :
    perform statement g = .accepted (g.setBody s (b.write g.depth line)) () [] := by
  rw [perform_of_plain plain]
  refine Eq.trans (bind_of_requireActive body _ _) ?_
  refine Eq.trans (Action.bind_of_check (a := line) ?_ _) ?_
  · exact form
  · exact writeLine_of_body body _ line

theorem unpackFirst_accepted {index : UInt32} (small : index < maxSubIndices)
    (fresh : ¬ g.unpacked.contains index = true) (body : g.openBody? = some (s, b)) :
    perform (.unpack index) g =
      .accepted { g.setBody s (b.write g.depth (.unpack index)) with
        unpacked := (g.unpacked.insert index).2 } () [] := by
  refine Eq.trans (bind_of_requireActive body _ _) ?_
  refine Eq.trans (Action.bind_of_check (a := .unpack index) ?_ _) ?_
  · exact if_pos small
  · exact (if_neg fresh).trans (Action.bind_accepted (writeLine_of_body body _ _) rfl)

theorem unpackAgain_accepted {index : UInt32} (small : index < maxSubIndices)
    (known : g.unpacked.contains index = true) (body : g.openBody? = some (s, b)) :
    perform (.unpack index) g = .accepted g () [] := by
  refine Eq.trans (bind_of_requireActive body _ _) ?_
  refine Eq.trans (Action.bind_of_check (a := .unpack index) ?_ _) ?_
  · exact if_pos small
  · exact if_pos known

/-- The line is written before the depth grows. -/
theorem enterBlock_accepted (o : Opener) (body : g.openBody? = some (s, b)) :
    perform (.openBlock o) g =
      .accepted { g.setBody s (b.write g.depth (.opener o)) with depth := g.depth + 1 } () [] :=
  Action.bind_accepted (writeLine_of_body body _ _) rfl

/-- The depth shrinks before the line is written, and that writing is not refused. -/
theorem leaveBlock_accepted (body : g.openBody? = some (s, b)) (nested : g.depth > 1) :
    perform .closeBlock g =
      .accepted { g.setBody s (b.write (g.depth - 1) .close) with depth := g.depth - 1 } () [] := by
  have hlower : (Action.modify fun g : Emitter => { g with depth := g.depth - 1 }) g =
      (.accepted { g with depth := g.depth - 1 } () [] : Outcome Emitter EmitError Unit) := rfl
  have hbody : { g with depth := g.depth - 1 }.openBody? = some (s, b) := body
  refine Eq.trans (bind_of_requireActive body _ _) ?_
  refine Eq.trans (Action.bind_of_check (a := ()) ?_ _) ?_
  · exact if_pos nested
  · exact Action.bind_accepted hlower (writeLine_of_body hbody _ _)

/-- A command is accepted with each of its transitions. -/
theorem Transition.step_accepted {g' : Emitter} {c : Command} (h : Transition g c g') :
    ∃ answer log, step c g = .accepted g' answer log := by
  cases h with
  | beginStage idle => exact ⟨_, _, Action.bind_accepted (beginStage_accepted idle) rfl⟩
  | endStage body flat => exact ⟨_, _, Action.bind_accepted (endStage_accepted body flat) rfl⟩
  | declareStruct form => exact ⟨_, _, Action.bind_accepted (declareStruct_accepted form) rfl⟩
  | declareUniform first form =>
    exact ⟨_, _, Action.bind_accepted (declareUniform_accepted first form) rfl⟩
  | declareBlock form => exact ⟨_, _, Action.bind_accepted (declareBlock_accepted form) rfl⟩
  | declareTable form fresh =>
    exact ⟨_, _, Action.bind_accepted (declareTable_accepted form fresh) rfl⟩
  | shareTable form declared =>
    exact ⟨_, _, Action.bind_accepted (shareTable_accepted form declared) rfl⟩
  | declareIndices small => exact ⟨_, _, Action.bind_accepted (declareIndices_accepted small) rfl⟩
  | declareVertexInput form =>
    exact ⟨_, _, Action.bind_accepted (declareVertexInput_accepted form) rfl⟩
  | declareFragmentOutput form =>
    exact ⟨_, _, Action.bind_accepted (declareFragmentOutput_accepted form) rfl⟩
  | declareAttachment form =>
    exact ⟨_, _, Action.bind_accepted (declareAttachment_accepted form) rfl⟩
  | declareVarying order form =>
    exact ⟨_, _, Action.bind_accepted (declareVarying_accepted order form) rfl⟩
  | writeStatement plain form body =>
    exact ⟨_, _, Action.bind_accepted (writeStatement_accepted plain form body) rfl⟩
  | unpackFirst small fresh body =>
    exact ⟨_, _, Action.bind_accepted (unpackFirst_accepted small fresh body) rfl⟩
  | unpackAgain small known body =>
    exact ⟨_, _, Action.bind_accepted (unpackAgain_accepted small known body) rfl⟩
  | enterBlock body => exact ⟨_, _, Action.bind_accepted (enterBlock_accepted _ body) rfl⟩
  | leaveBlock body nested =>
    exact ⟨_, _, Action.bind_accepted (leaveBlock_accepted body nested) rfl⟩

end Accepted

/-! ## Every command settles -/

section Statements

variable {g : Emitter} {α : Type} {P : Emitter → Prop}

theorem writeLine_of_none (hb : g.openBody? = none) (operation : String) (line : Line) :
    writeLine operation line g = .refused g (.sequence (.stageInactive operation)) := by
  rw [writeLine, hb]

/-- Past the test for an active stage there is a body to write to. -/
theorem settles_requireActive (hg : g.WellFormed) {operation : String}
    {f : Unit → Action Emitter EmitError α}
    (h : ∀ s b, g.openBody? = some (s, b) → (f ()).Settles g P) :
    (requireActive operation >>= f).Settles g P := by
  refine Action.Settles.check fun _ htest => ?_
  have hactive : g.isActive = true := by
    by_contra hidle
    rw [if_neg hidle] at htest
    cases htest
  obtain ⟨s, b, hb⟩ := hg.openBody hactive
  exact h s b hb

theorem writeStatement_settles (hg : g.WellFormed) {statement : Statement}
    (plain : statement.isPlain = true) :
    (writeStatement statement).Settles g (Transition g (.perform statement)) := by
  refine settles_requireActive hg fun s b hb => Action.Settles.check fun line hline => ?_
  exact Or.inr ⟨_, _, _, writeLine_of_body hb _ line, .writeStatement plain hline hb⟩

theorem unpackIndex_settles (hg : g.WellFormed) (index : UInt32) :
    (unpackIndex index).Settles g (Transition g (.perform (.unpack index))) := by
  refine settles_requireActive hg fun s b hb => Action.Settles.check fun line hline => ?_
  have hform : index < maxSubIndices ∧ line = .unpack index := by
    rw [Statement.line] at hline
    split at hline
    · next hsmall => exact ⟨hsmall, (Except.ok.inj hline).symm⟩
    · cases hline
  obtain ⟨hsmall, rfl⟩ := hform
  by_cases hknown : g.unpacked.contains index = true
  · exact Or.inr ⟨g, (), [], if_pos hknown, .unpackAgain hsmall hknown hb⟩
  · refine Or.inr ⟨_, (), [], ?_, .unpackFirst hsmall hknown hb⟩
    exact (if_neg hknown).trans (Action.bind_accepted (writeLine_of_body hb _ _) rfl)

/-- The line is written before the depth grows. -/
theorem enterBlock_settles (o : Opener) :
    (enterBlock o).Settles g (Transition g (.perform (.openBlock o))) := by
  cases hb : g.openBody? with
  | none =>
    exact Or.inl ⟨_, Action.bind_refused (writeLine_of_none hb _ _) _⟩
  | some sb =>
    exact Or.inr ⟨_, _, _, enterBlock_accepted o hb, .enterBlock hb⟩

/-- The depth shrinks before the line is written, and that writing never fails. -/
theorem leaveBlock_settles (hg : g.WellFormed) :
    leaveBlock.Settles g (Transition g (.perform .closeBlock)) := by
  refine settles_requireActive hg fun s b hb => Action.Settles.check fun _ htest => ?_
  have hnested : g.depth > 1 := by
    by_contra hflat
    rw [if_neg hflat] at htest
    cases htest
  have hlower : (Action.modify fun g : Emitter => { g with depth := g.depth - 1 }) g =
      (.accepted { g with depth := g.depth - 1 } () [] : Outcome Emitter EmitError Unit) := rfl
  have hb' : { g with depth := g.depth - 1 }.openBody? = some (s, b) := hb
  exact Or.inr ⟨_, (), [], Action.bind_accepted hlower (writeLine_of_body hb' _ _),
    .leaveBlock hb hnested⟩

theorem perform_settles (hg : g.WellFormed) (statement : Statement) :
    (perform statement).Settles g (Transition g (.perform statement)) := by
  cases statement with
  | declare v => exact writeStatement_settles hg rfl
  | assign left operator right => exact writeStatement_settles hg rfl
  | store template value => exact writeStatement_settles hg rfl
  | unpack index => exact unpackIndex_settles hg index
  | openBlock o => exact enterBlock_settles o
  | closeBlock => exact leaveBlock_settles hg

end Statements

section Stages

variable {g : Emitter}

theorem beginStage_settles (s : Stage) :
    (beginStage s).Settles g (Transition g (.beginStage s)) := by
  cases hidle : g.active with
  | some a => exact Or.inl ⟨_, by rw [beginStage, hidle]⟩
  | none => exact Or.inr ⟨_, _, _, beginStage_accepted hidle, .beginStage hidle⟩

/-- The end of a stage is not refused after the two tests. -/
theorem endStage_settles (hg : g.WellFormed) : endStage.Settles g (Transition g .endStage) := by
  refine Action.Settles.check fun s hactive => Action.Settles.check fun _ htest => ?_
  have hs : g.isActive = true := by
    cases h : g.active with
    | none => rw [h] at hactive; cases hactive
    | some a => rw [isActive, h]; rfl
  have hflat : ¬ g.depth > 1 := by
    intro hnested
    rw [if_pos hnested] at htest
    cases htest
  obtain ⟨t, b, hb⟩ := hg.openBody hs
  exact Or.inr ⟨g.ended t b, t, [.stageEnded t], by simp only [hb], .endStage hb hflat⟩

end Stages

section Declarations

variable {g : Emitter}

theorem declareStruct_settles (s : StructType) :
    (declareStruct s).Settles g (Transition g (.declareStruct s)) := by
  cases hform : structDeclaration s with
  | error e => exact Or.inl ⟨e, by rw [declareStruct, hform]⟩
  | ok d => exact Or.inr ⟨_, _, _, declareStruct_accepted hform, .declareStruct hform⟩

theorem declareUniform_settles (v : ResourceVariable) :
    (declareUniform v).Settles g (Transition g (.declareUniform v)) := by
  by_cases hfirst : g.uniformDeclared = true
  · exact Or.inl ⟨_, by rw [declareUniform, if_pos hfirst]⟩
  · cases hform : uniformDeclaration v with
    | error e => exact Or.inl ⟨e, by rw [declareUniform, if_neg hfirst, hform]⟩
    | ok d =>
      exact Or.inr ⟨_, _, _, declareUniform_accepted hfirst hform, .declareUniform hfirst hform⟩

theorem declareBinding_settles (v : ResourceVariable) :
    (declareBinding v).Settles g (Transition g (.declareBinding v)) := by
  cases hform : bindingForm g.sizes g.nextBlock v with
  | error e => exact Or.inl ⟨e, by rw [declareBinding, hform]⟩
  | ok form =>
    cases form with
    | block b => exact Or.inr ⟨_, _, _, declareBlock_accepted hform, .declareBlock hform⟩
    | table t =>
      by_cases hknown : g.tables.contains t.name = true
      · exact Or.inr ⟨_, _, _, shareTable_accepted hform hknown, .shareTable hform hknown⟩
      · exact Or.inr ⟨_, _, _, declareTable_accepted hform hknown, .declareTable hform hknown⟩

theorem declareIndices_settles (max : UInt32) :
    (declareIndices max).Settles g (Transition g (.declareIndices max)) := by
  by_cases hsmall : max < maxSubIndices
  · exact Or.inr ⟨_, _, _, declareIndices_accepted hsmall, .declareIndices hsmall⟩
  · exact Or.inl ⟨_, by rw [declareIndices, if_neg hsmall]⟩

theorem declareVertexInput_settles (v : InterfaceVariable) :
    (declareVertexInput v).Settles g (Transition g (.declareVertexInput v)) := by
  cases hform : locatedValue "vertex input" .input v with
  | error e => exact Or.inl ⟨e, by rw [declareVertexInput, hform]⟩
  | ok value =>
    exact Or.inr ⟨_, _, _, declareVertexInput_accepted hform, .declareVertexInput hform⟩

theorem declareFragmentOutput_settles (v : InterfaceVariable) :
    (declareFragmentOutput v).Settles g (Transition g (.declareFragmentOutput v)) := by
  cases hform : locatedValue "fragment output" .output v with
  | error e => exact Or.inl ⟨e, by rw [declareFragmentOutput, hform]⟩
  | ok value =>
    exact Or.inr ⟨_, _, _, declareFragmentOutput_accepted hform, .declareFragmentOutput hform⟩

theorem declareAttachment_settles (v : AttachmentVariable) :
    (declareAttachment v).Settles g (Transition g (.declareAttachment v)) := by
  cases hform : v.component.attachmentToken? with
  | none => exact Or.inl ⟨_, by rw [declareAttachment, hform]⟩
  | some token =>
    exact Or.inr ⟨_, _, _, declareAttachment_accepted hform, .declareAttachment hform⟩

theorem declareVarying_settles (v : Variable) (producer consumer : Stage) :
    (declareVarying v producer consumer).Settles g
      (Transition g (.declareVarying v producer consumer)) := by
  by_cases horder : producer < consumer
  · cases hform : varyingToken? v with
    | none => exact Or.inl ⟨_, by rw [declareVarying, if_pos horder, hform]⟩
    | some token =>
      exact Or.inr ⟨_, _, _, declareVarying_accepted horder hform, .declareVarying horder hform⟩
  · exact Or.inl ⟨_, by rw [declareVarying, if_neg horder]⟩

end Declarations

/-- A command is refused without a trace, or accepted with a transition. -/
theorem step_settles : Refines step WellFormed Transition := by
  intro c g hg
  cases c with
  | beginStage s => exact (beginStage_settles s).answer _
  | endStage => exact (endStage_settles hg).answer _
  | declareStruct s => exact (declareStruct_settles s).answer _
  | declareUniform v => exact (declareUniform_settles v).answer _
  | declareBinding v => exact (declareBinding_settles v).answer _
  | declareIndices max => exact (declareIndices_settles max).answer _
  | declareVertexInput v => exact (declareVertexInput_settles v).answer _
  | declareFragmentOutput v => exact (declareFragmentOutput_settles v).answer _
  | declareAttachment v => exact (declareAttachment_settles v).answer _
  | declareVarying v producer consumer =>
    exact (declareVarying_settles v producer consumer).answer _
  | perform statement => exact (perform_settles hg statement).answer _

theorem Transition.declareIndices_state {g g' : Emitter} {max : UInt32}
    (h : Transition g (.declareIndices max) g') :
    g' = g.declare (.pushConstants (subIndexFields max)) := by
  cases h with
  | declareIndices small => rfl

/-! ## Reachable states -/

/-- Every transition keeps a body and a line depth for the active stage. -/
theorem Transition.wellFormed {g g' : Emitter} {c : Command} (hg : g.WellFormed)
    (h : Transition g c g') : g'.WellFormed := by
  cases h with
  | beginStage idle =>
    -- the begun stage has the fresh body, at depth one
    refine ⟨fun hs => ?_, fun _ => Nat.one_pos⟩
    cases hs
    exact ⟨.fresh, by simp [opened, body_setBody]⟩
  | endStage body flat =>
    -- no stage is active behind an end
    constructor <;> intro s hs <;> cases hs
  | declareStruct form => exact ⟨hg.body, hg.depth⟩
  | declareUniform first form => exact ⟨hg.body, hg.depth⟩
  | declareBlock form => exact ⟨hg.body, hg.depth⟩
  | declareTable form fresh => exact ⟨hg.body, hg.depth⟩
  | shareTable form declared => exact hg
  | declareIndices small => exact ⟨hg.body, hg.depth⟩
  | declareVertexInput form => exact ⟨fun hs => by simpa using hg.body hs, hg.depth⟩
  | declareFragmentOutput form => exact ⟨fun hs => by simpa using hg.body hs, hg.depth⟩
  | declareAttachment form => exact ⟨fun hs => by simpa using hg.body hs, hg.depth⟩
  | declareVarying order form =>
    exact ⟨fun hs => by simpa [withVarying] using hg.body hs, hg.depth⟩
  | writeStatement plain form body => exact ⟨fun hs => hg.body_setBody hs, hg.depth⟩
  | unpackFirst small fresh body => exact ⟨fun hs => hg.body_setBody hs, hg.depth⟩
  | unpackAgain small known body => exact hg
  | enterBlock body => exact ⟨fun hs => hg.body_setBody hs, fun _ => Nat.succ_pos _⟩
  | leaveBlock body nested =>
    exact ⟨fun hs => hg.body_setBody hs, fun _ => Nat.sub_pos_of_lt nested⟩

theorem wellFormed_of_chain {g g' : Emitter} {commands : List Command}
    (h : Chain Transition g commands g') (hg : g.WellFormed) : g'.WellFormed :=
  h.keeps (fun hg hT => Transition.wellFormed hg hT) hg

/-- A run is the chain of its accepted commands. -/
theorem chain_run {g : Emitter} (hg : g.WellFormed) (commands : List Command) :
    Chain Transition g (Action.accepted step commands g) (run commands g) :=
  chain_accepted step_settles (fun hg h => h.wellFormed hg) commands hg

theorem wellFormed_run {g : Emitter} (hg : g.WellFormed) (commands : List Command) :
    (run commands g).WellFormed :=
  wellFormed_of_chain (chain_run hg commands) hg

theorem step_wellFormed {g : Emitter} (hg : g.WellFormed) (c : Command) :
    (step c g).state.WellFormed :=
  wellFormed_run hg [c]

theorem run_append_cons (before : List Command) (c : Command) (after : List Command)
    (g : Emitter) :
    run (before ++ c :: after) g = run after (step c (run before g)).state := by
  rw [run, List.foldl_append, List.foldl_cons]
  rfl

/-- A state that some commands lead to from a new emitter. -/
def Reachable (g : Emitter) : Prop :=
  ∃ sizes commands, g = run commands (new sizes)

theorem Reachable.wellFormed {g : Emitter} (h : g.Reachable) : g.WellFormed := by
  obtain ⟨sizes, commands, rfl⟩ := h
  exact wellFormed_run (wellFormed_new sizes) commands

end Emitter

end GlslEmit
