/-
# Stages do not disturb each other

The stages of a program share one emitter: its depth, its remembered sub-indices and its active
stage belong to whichever stage is active.  Nevertheless the source of a stage depends on its own
last activation, on the preamble and on its own header alone: all other stage changes, statements
and header declarations can be left out of a run.

The two runs are compared in three phases.  Outside the activation they agree on the surroundings
of the stage, and the shorter run has no active stage; during the activation they agree on the stage
as well; behind it they agree on its body.

* `Emitter.isolated` is the shorter run, `Emitter.IsLastActivation` the place of the last
  activation;
* `Transition.mirror_surroundings` and `Transition.mirror_stage`: an accepted command is accepted by
  every emitter that agrees on what the command needs;
* `Emitter.Outside`, `Emitter.Inside` and `Emitter.Behind` are the phases;
* `Emitter.source_isolated`: both runs give the stage the same source.
-/
import GlslEmit.Proofs.Emitter.Rendering

namespace GlslEmit

namespace Emitter

/-! ## Runs with one activation -/

/-- Whether a command writes to the preamble or to the header of a stage, or takes a location. -/
def Command.reaches (s : Stage) (c : Command) : Bool :=
  match c.region with
  | .preamble => true
  | .headers => c.isVarying || !(interfaceAfter s [] c).isEmpty
  | .bodies => false

/-- The commands of a run that remain for one stage: those of the given activation to the bodies,
and all that reach the surroundings of the stage. -/
def isolated (s : Stage) (before during after : List Command) : List Command :=
  before.filter (·.reaches s) ++
    .beginStage s ::
      (during.filter (fun c => c.region = .bodies || c.reaches s) ++
        .endStage :: after.filter (·.reaches s))

/-- The commands `during` are those of the last activation of a stage: behind its last accepted
beginning, and in front of the first accepted end after it. -/
structure IsLastActivation (sizes : TableSizes) (s : Stage)
    (commands before during after : List Command) : Prop where
  split : commands = before ++ .beginStage s :: (during ++ .endStage :: after)
  begun : (step (.beginStage s) (run before (new sizes))).result.isOk = true
  unended : .endStage ∉
    Action.accepted step during (run (before ++ [.beginStage s]) (new sizes))
  ended : (step .endStage (run (before ++ .beginStage s :: during) (new sizes))).result.isOk = true
  last : .beginStage s ∉
    Action.accepted step after
      (run (before ++ .beginStage s :: (during ++ [.endStage])) (new sizes))

/-! ## Agreement of two emitters -/

/-- Two emitters agree on what the source of a stage takes from outside its body, and on the numbers
and names that go with it. -/
structure SameSurroundings (s : Stage) (g g' : Emitter) : Prop where
  preamble : SamePreamble g g'
  header : (g'.outputs.get s).header = (g.outputs.get s).header
  nextLocation : g'.nextLocation = g.nextLocation

/-- Two emitters agree on the body of a stage and on what the active stage goes by. -/
structure SameStage (s : Stage) (g g' : Emitter) : Prop where
  body : (g'.outputs.get s).body = (g.outputs.get s).body
  active : g'.active = g.active
  depth : g'.depth = g.depth
  unpacked : g'.unpacked = g.unpacked

variable {s : Stage} {g g' g'' t : Emitter} {c : Command}

theorem SamePreamble.symm (h : SamePreamble g g') : SamePreamble g' g :=
  ⟨h.sizes.symm, h.declarations.symm, h.nextBlock.symm, h.tables.symm, h.uniformDeclared.symm⟩

theorem SamePreamble.trans (h : SamePreamble g g') (h' : SamePreamble g' g'') :
    SamePreamble g g'' :=
  ⟨h'.sizes.trans h.sizes, h'.declarations.trans h.declarations, h'.nextBlock.trans h.nextBlock,
    h'.tables.trans h.tables, h'.uniformDeclared.trans h.uniformDeclared⟩

namespace SameSurroundings

theorem refl (s : Stage) (g : Emitter) : SameSurroundings s g g :=
  ⟨⟨rfl, rfl, rfl, rfl, rfl⟩, rfl, rfl⟩

theorem symm (h : SameSurroundings s g g') : SameSurroundings s g' g :=
  ⟨h.preamble.symm, h.header.symm, h.nextLocation.symm⟩

theorem trans (h : SameSurroundings s g g') (h' : SameSurroundings s g' g'') :
    SameSurroundings s g g'' :=
  ⟨h.preamble.trans h'.preamble, h'.header.trans h.header, h'.nextLocation.trans h.nextLocation⟩

/-- The same declaration in the preamble. -/
theorem declare (h : SameSurroundings s g g') (d : Declaration) :
    SameSurroundings s (g.declare d) (g'.declare d) where
  preamble := { h.preamble with declarations := congrArg (· ++ [d]) h.preamble.declarations }
  header := h.header
  nextLocation := h.nextLocation

/-- The same declaration in a header. -/
theorem declareIn (h : SameSurroundings s g g') (a : Stage) (d : InterfaceDeclaration) :
    SameSurroundings s (g.declareIn a d) (g'.declareIn a d) where
  preamble := { h.preamble with }
  header := by rw [header_declareIn, header_declareIn, h.header]
  nextLocation := h.nextLocation

theorem withVarying (h : SameSurroundings s g g') (v : Variable) (producer consumer : Stage)
    (token : String) : SameSurroundings s (g.withVarying v producer consumer token)
      (g'.withVarying v producer consumer token) := by
  have hheaders := (h.declareIn producer
      (.located (varyingValue g.nextLocation .output producer token v))).declareIn consumer
    (.located (varyingValue g.nextLocation .input consumer token v))
  rw [Emitter.withVarying, Emitter.withVarying, h.nextLocation]
  exact ⟨{ hheaders.preamble with }, hheaders.header, rfl⟩

end SameSurroundings

namespace SameStage

theorem symm (h : SameStage s g g') : SameStage s g' g :=
  ⟨h.body.symm, h.active.symm, h.depth.symm, h.unpacked.symm⟩

theorem trans (h : SameStage s g g') (h' : SameStage s g' g'') : SameStage s g g'' :=
  ⟨h'.body.trans h.body, h'.active.trans h.active, h'.depth.trans h.depth,
    h'.unpacked.trans h.unpacked⟩

/-- The active stage writes to the same body. -/
theorem openBody?_eq (h : SameStage s g g') (hs : g.active = some s) :
    g'.openBody? = g.openBody? := by
  simp only [openBody?, h.active, hs, Option.bind_some, h.body]

end SameStage

theorem SameBodies.sameStage (h : SameBodies g g') (s : Stage) : SameStage s g g' :=
  ⟨h.body s, h.active, h.depth, h.unpacked⟩

/-! ## Mirrored steps -/

/-- A declaration is accepted wherever the surroundings are the same, and leaves them the same. -/
theorem Transition.mirror_surroundings (h : Transition g c t) (hc : c.region ≠ .bodies)
    (hsame : SameSurroundings s g g') :
    ∃ t', Transition g' c t' ∧ SameSurroundings s t t' := by
  have hform (v : ResourceVariable) :
      bindingForm g'.sizes g'.nextBlock v = bindingForm g.sizes g.nextBlock v := by
    rw [hsame.preamble.sizes, hsame.preamble.nextBlock]
  cases h with
  | declareStruct form => exact ⟨_, .declareStruct form, hsame.declare _⟩
  | @declareUniform v d first form =>
    have hd := hsame.declare d
    exact ⟨_, .declareUniform (hsame.preamble.uniformDeclared ▸ first) form,
      ⟨{ hd.preamble with uniformDeclared := rfl }, hd.header, hd.nextLocation⟩⟩
  | @declareBlock v b form =>
    have hd := hsame.declare (.bufferBlock b)
    exact ⟨_, .declareBlock ((hform v).trans form),
      ⟨{ hd.preamble with nextBlock := congrArg (· + 1) hsame.preamble.nextBlock }, hd.header,
        hd.nextLocation⟩⟩
  | @declareTable v b form fresh =>
    have hd := hsame.declare (.table b)
    exact ⟨_, .declareTable ((hform v).trans form) (hsame.preamble.tables ▸ fresh),
      ⟨{ hd.preamble with tables := congrArg (·.insert b.name) hsame.preamble.tables }, hd.header,
        hd.nextLocation⟩⟩
  | @shareTable v b form declared =>
    exact ⟨g', .shareTable ((hform v).trans form) (hsame.preamble.tables ▸ declared), hsame⟩
  | declareIndices small => exact ⟨_, .declareIndices small, hsame.declare _⟩
  | declareVertexInput form => exact ⟨_, .declareVertexInput form, hsame.declareIn _ _⟩
  | declareFragmentOutput form => exact ⟨_, .declareFragmentOutput form, hsame.declareIn _ _⟩
  | declareAttachment form => exact ⟨_, .declareAttachment form, hsame.declareIn _ _⟩
  | declareVarying order form =>
    exact ⟨_, .declareVarying order form, hsame.withVarying _ _ _ _⟩
  | _ => exact absurd rfl hc

/-- A stage change or a statement is accepted wherever the active stage is the same, and leaves it
the same. -/
theorem Transition.mirror_stage (h : Transition g c t) (hc : c.region = .bodies)
    (hs : g.active = some s) (hsame : SameStage s g g') :
    ∃ t', Transition g' c t' ∧ SameStage s t t' := by
  have hopen := hsame.openBody?_eq hs
  have hbody (b : Body) (a : Stage) :
      ((g'.setBody a b).outputs.get s).body = ((g.setBody a b).outputs.get s).body := by
    rw [body_setBody, body_setBody, hsame.body]
  cases h with
  | beginStage idle =>
    rw [idle] at hs
    cases hs
  | endStage body flat =>
    exact ⟨_, .endStage (hopen.trans body) (hsame.depth ▸ flat), ⟨hbody _ _, rfl, rfl, rfl⟩⟩
  | writeStatement plain form body =>
    have hT := Transition.writeStatement plain form (hopen.trans body)
    rw [hsame.depth] at hT
    exact ⟨_, hT, ⟨hbody _ _, hsame.active, hsame.depth, hsame.unpacked⟩⟩
  | unpackFirst small fresh body =>
    have hT := Transition.unpackFirst small (hsame.unpacked ▸ fresh) (hopen.trans body)
    rw [hsame.depth, hsame.unpacked] at hT
    exact ⟨_, hT, ⟨hbody _ _, hsame.active, hsame.depth, rfl⟩⟩
  | unpackAgain small known body =>
    exact ⟨g', .unpackAgain small (hsame.unpacked ▸ known) (hopen.trans body), hsame⟩
  | @enterBlock opener a b body =>
    have hT := Transition.enterBlock (o := opener) (hopen.trans body)
    rw [hsame.depth] at hT
    exact ⟨_, hT, ⟨hbody _ _, hsame.active, rfl, hsame.unpacked⟩⟩
  | leaveBlock body nested =>
    have hT := Transition.leaveBlock (hopen.trans body) (hsame.depth ▸ nested)
    rw [hsame.depth] at hT
    exact ⟨_, hT, ⟨hbody _ _, hsame.active, rfl, hsame.unpacked⟩⟩
  | _ => cases hc

/-! ## What a step leaves the same -/

/-- A command that reaches nothing keeps the surroundings of the stage. -/
theorem Transition.sameSurroundings (h : Transition g c t) (hc : c.reaches s = false) :
    SameSurroundings s g t := by
  have hpreamble : c.region ≠ .preamble := by
    intro hregion
    simp [Command.reaches, hregion] at hc
  by_cases hregion : c.region = .headers
  · refine ⟨h.samePreamble hpreamble, ?_, ?_⟩ <;> rw [Command.reaches, hregion] at hc
    · cases h with
      | @declareVertexInput v value form =>
        by_cases hs : Stage.vertex = s
        · simp [interfaceAfter, hs, form, Except.toOption] at hc
        · rw [header_declareIn, if_neg hs, List.append_nil]
      | @declareFragmentOutput v value form =>
        by_cases hs : Stage.fragment = s
        · simp [interfaceAfter, hs, form, Except.toOption] at hc
        · rw [header_declareIn, if_neg hs, List.append_nil]
      | @declareAttachment v token form =>
        by_cases hs : Stage.fragment = s
        · simp [interfaceAfter, hs, form] at hc
        · rw [header_declareIn, if_neg hs, List.append_nil]
      | declareVarying order form => cases hc
      | _ => cases hregion
    · cases h with
      | declareVarying order form => cases hc
      | _ => rfl
  · have hheaders := h.sameHeaders hregion
    exact ⟨h.samePreamble hpreamble, hheaders.header s, hheaders.nextLocation⟩

/-- While another stage or none is active, only its beginning changes the body of a stage. -/
theorem Transition.body_of_inactive (h : Transition g c t) (hs : g.active ≠ some s)
    (hc : c ≠ .beginStage s) :
    (t.outputs.get s).body = (g.outputs.get s).body ∧ t.active ≠ some s := by
  have hother {a : Stage} {b : Body} (body : g.openBody? = some (a, b)) (b' : Body) :
      ((g.setBody a b').outputs.get s).body = (g.outputs.get s).body := by
    have ha : a ≠ s := by
      rintro rfl
      exact hs (openBody?_eq_some_iff.mp body).1
    rw [body_setBody, if_neg ha]
  by_cases hregion : c.region = .bodies
  · cases h with
    | @beginStage a idle =>
      have ha : a ≠ s := fun heq => hc (congrArg Command.beginStage heq)
      exact ⟨by rw [opened, body_setBody, if_neg ha], fun heq => ha (Option.some.inj heq)⟩
    | endStage body flat => exact ⟨hother body _, fun heq => by cases heq⟩
    | writeStatement plain form body => exact ⟨hother body _, hs⟩
    | unpackFirst small fresh body => exact ⟨hother body _, hs⟩
    | unpackAgain small known body => exact ⟨rfl, hs⟩
    | enterBlock body => exact ⟨hother body _, hs⟩
    | leaveBlock body nested => exact ⟨hother body _, hs⟩
    | _ => cases hregion
  · have hbodies := h.sameBodies hregion
    exact ⟨hbodies.body s, hbodies.active ▸ hs⟩

/-! ## Steps side by side -/

/-- What holds of the state before, and behind every transition that is accepted, holds behind a
step. -/
theorem step_state_of {R : Emitter → Prop} (hg : g.WellFormed) (hrefused : R g)
    (haccepted : ∀ t, (step c g).result.isOk = true → Transition g c t → R t) :
    R (step c g).state := by
  rcases step_settles c g hg with ⟨e, he⟩ | ⟨t, a, log, ha, ht⟩
  · rw [he]
    exact hrefused
  · rw [ha]
    exact haccepted t (by rw [ha]; rfl) ht

/-- Two emitters that accept the same transitions of a command stay related. -/
theorem step_mirrored {R : Emitter → Emitter → Prop} (hg : g.WellFormed) (hg' : g'.WellFormed)
    (hR : R g g') (hforth : ∀ t, Transition g c t → ∃ t', Transition g' c t' ∧ R t t')
    (hback : ∀ t', Transition g' c t' → ∃ t, Transition g c t) :
    R (step c g).state (step c g').state := by
  rcases step_settles c g hg with ⟨e, he⟩ | ⟨t, a, log, ha, ht⟩
  · rcases step_settles c g' hg' with ⟨e', he'⟩ | ⟨t', a', log', ha', ht'⟩
    · rw [he, he']
      exact hR
    · obtain ⟨t, ht⟩ := hback t' ht'
      obtain ⟨a, log, ha⟩ := ht.step_accepted
      rw [he] at ha
      cases ha
  · obtain ⟨t', ht', hRt⟩ := hforth t ht
    obtain ⟨a', log', ha'⟩ := ht'.step_accepted
    rw [ha, ha']
    exact hRt

theorem step_sameSurroundings (hg : g.WellFormed) (hc : c.reaches s = false) :
    SameSurroundings s g (step c g).state :=
  step_state_of hg (.refl s g) fun _ _ ht => ht.sameSurroundings hc

theorem step_sameStage (hg : g.WellFormed) (hc : c.region ≠ .bodies) (s : Stage) :
    SameStage s g (step c g).state :=
  step_state_of hg ⟨rfl, rfl, rfl, rfl⟩ fun _ _ ht => (ht.sameBodies hc).sameStage s

theorem region_of_reaches (h : c.reaches s = true) : c.region ≠ .bodies := by
  intro hregion
  rw [Command.reaches, hregion] at h
  cases h

/-- Every command does the same to the same surroundings. -/
theorem SameSurroundings.step (hsame : SameSurroundings s g g') (hg : g.WellFormed)
    (hg' : g'.WellFormed) (c : Command) :
    SameSurroundings s (step c g).state (step c g').state := by
  cases hc : c.reaches s with
  | true =>
    have hregion := region_of_reaches hc
    exact step_mirrored hg hg' hsame (fun _ ht => ht.mirror_surroundings hregion hsame)
      fun _ ht' => (ht'.mirror_surroundings hregion hsame.symm).imp fun _ ht => ht.1
  | false =>
    exact ((step_sameSurroundings hg hc).symm.trans hsame).trans (step_sameSurroundings hg' hc)

/-- Every command does the same to the same active stage. -/
theorem SameStage.step (hsame : SameStage s g g') (hg : g.WellFormed) (hg' : g'.WellFormed)
    (hs : g.active = some s) (c : Command) : SameStage s (step c g).state (step c g').state := by
  by_cases hc : c.region = .bodies
  · exact step_mirrored hg hg' hsame (fun _ ht => ht.mirror_stage hc hs hsame) fun _ ht' =>
      (ht'.mirror_stage hc (hsame.active.trans hs) hsame.symm).imp fun _ ht => ht.1
  · exact ((step_sameStage hg hc s).symm.trans hsame).trans (step_sameStage hg' hc s)

/-! ## The three phases -/

/-- Outside of an activation: the second emitter has no active stage. -/
structure Outside (s : Stage) (g g' : Emitter) : Prop where
  wellFormed : g.WellFormed
  wellFormed' : g'.WellFormed
  surroundings : SameSurroundings s g g'
  idle : g'.active = none

/-- During the activation: the stage is active in both. -/
structure Inside (s : Stage) (g g' : Emitter) : Prop where
  wellFormed : g.WellFormed
  wellFormed' : g'.WellFormed
  surroundings : SameSurroundings s g g'
  stage : SameStage s g g'
  active : g.active = some s

/-- Behind the activation: both have the same finished body. -/
structure Behind (s : Stage) (g g' : Emitter) : Prop extends Outside s g g' where
  body : (g'.outputs.get s).body = (g.outputs.get s).body
  inactive : g.active ≠ some s

theorem Outside.kept (h : Outside s g g') (hc : c.reaches s = true) :
    Outside s (step c g).state (step c g').state where
  wellFormed := step_wellFormed h.wellFormed c
  wellFormed' := step_wellFormed h.wellFormed' c
  surroundings := h.surroundings.step h.wellFormed h.wellFormed' c
  idle := (step_sameStage h.wellFormed' (region_of_reaches hc) s).active.trans h.idle

theorem Outside.dropped (h : Outside s g g') (hc : c.reaches s = false) :
    Outside s (step c g).state g' where
  wellFormed := step_wellFormed h.wellFormed c
  wellFormed' := h.wellFormed'
  surroundings := (step_sameSurroundings h.wellFormed hc).symm.trans h.surroundings
  idle := h.idle

/-- A beginning leads from outside an activation into it. -/
theorem Outside.begin (h : Outside s g g')
    (hbegun : (step (.beginStage s) g).result.isOk = true) :
    Inside s (step (.beginStage s) g).state (step (.beginStage s) g').state := by
  have hT := (step_settles (.beginStage s) g h.wellFormed).of_isOk hbegun
  have hstart : (step (.beginStage s) g').state = g'.opened s := by
    obtain ⟨a, log, ha⟩ := (Transition.beginStage (s := s) h.idle).step_accepted
    rw [ha]
    rfl
  refine ⟨step_wellFormed h.wellFormed _, step_wellFormed h.wellFormed' _,
    h.surroundings.step h.wellFormed h.wellFormed' _, ?_, ?_⟩
  · rw [hT.opened_of_begin, hstart]
    exact ⟨by simp [opened, body_setBody], rfl, rfl, rfl⟩
  · rw [hT.opened_of_begin]
    rfl

theorem Inside.kept (h : Inside s g g') (hend : (step c g).result.isOk = true → c ≠ .endStage) :
    Inside s (step c g).state (step c g').state where
  wellFormed := step_wellFormed h.wellFormed c
  wellFormed' := step_wellFormed h.wellFormed' c
  surroundings := h.surroundings.step h.wellFormed h.wellFormed' c
  stage := h.stage.step h.wellFormed h.wellFormed' h.active c
  active := step_state_of (R := fun t => t.active = some s) h.wellFormed h.active fun _ hok ht =>
    ht.active_eq h.active (hend hok)

theorem Inside.dropped (h : Inside s g g') (hregion : c.region ≠ .bodies)
    (hc : c.reaches s = false) : Inside s (step c g).state g' where
  wellFormed := step_wellFormed h.wellFormed c
  wellFormed' := h.wellFormed'
  surroundings := (step_sameSurroundings h.wellFormed hc).symm.trans h.surroundings
  stage := (step_sameStage h.wellFormed hregion s).symm.trans h.stage
  active := (step_sameStage h.wellFormed hregion s).active.trans h.active

/-- An end leads out of an activation. -/
theorem Inside.end (h : Inside s g g') (hended : (step .endStage g).result.isOk = true) :
    Behind s (step .endStage g).state (step .endStage g').state := by
  have hidle : (step .endStage g).state.active = none := by
    have hT := (step_settles .endStage g h.wellFormed).of_isOk hended
    generalize (step .endStage g).state = t at hT
    cases hT
    rfl
  have hstage := h.stage.step h.wellFormed h.wellFormed' h.active .endStage
  exact {
    wellFormed := step_wellFormed h.wellFormed _
    wellFormed' := step_wellFormed h.wellFormed' _
    surroundings := h.surroundings.step h.wellFormed h.wellFormed' _
    idle := hstage.active.trans hidle
    body := hstage.body
    inactive := by
      rw [hidle]
      exact (Option.some_ne_none s).symm }

theorem Behind.kept (h : Behind s g g') (hc : c.reaches s = true) :
    Behind s (step c g).state (step c g').state := by
  have hstage := step_sameStage h.wellFormed (region_of_reaches hc) s
  have hstage' := step_sameStage h.wellFormed' (region_of_reaches hc) s
  exact { h.toOutside.kept hc with
    body := (hstage'.body.trans h.body).trans hstage.body.symm
    inactive := hstage.active ▸ h.inactive }

theorem Behind.dropped (h : Behind s g g') (hc : c.reaches s = false)
    (hlast : (step c g).result.isOk = true → c ≠ .beginStage s) :
    Behind s (step c g).state g' := by
  obtain ⟨hbody, hinactive⟩ :=
    step_state_of (c := c)
      (R := fun t => (t.outputs.get s).body = (g.outputs.get s).body ∧ t.active ≠ some s)
      h.wellFormed ⟨rfl, h.inactive⟩ fun t hok ht => ht.body_of_inactive h.inactive (hlast hok)
  exact { h.toOutside.dropped hc with
    body := h.body.trans hbody.symm
    inactive := hinactive }

/-- Behind the activation the stage has the same source in both. -/
theorem Behind.source?_eq (h : Behind s g g') : g'.source? s = g.source? s := by
  have hidle : g'.active ≠ some s := by
    rw [h.idle]
    exact (Option.some_ne_none s).symm
  rw [source?, source?, if_neg h.inactive, if_neg hidle, h.body, h.surroundings.header, preamble,
    preamble, h.surroundings.preamble.declarations]

/-! ## The last activation -/

section Runs

variable {sizes : TableSizes} {commands before during after : List Command}

/-- A stage that was begun and is not active any more has a last activation. -/
theorem exists_lastActivation (hactivated : (run commands (new sizes)).isActivated s = true)
    (hinactive : (run commands (new sizes)).active ≠ some s) :
    ∃ before during after, IsLastActivation sizes s commands before during after := by
  obtain ⟨before, rest, rfl, hok, hlast⟩ :=
    Action.exists_last_accepted ((isActivated_run sizes commands s).mp hactivated)
  have hwell : (run before (new sizes)).WellFormed := wellFormed_run (wellFormed_new sizes) before
  have hT := (step_settles (.beginStage s) (run before (new sizes)) hwell).of_isOk hok
  -- without an end the stage would still be active
  have hend : .endStage ∈
      Action.accepted step rest (step (.beginStage s) (run before (new sizes))).state := by
    by_contra hopen
    refine hinactive ?_
    rw [run_append_cons]
    refine active_of_chain (chain_run (hT.wellFormed hwell) rest) ?_ hopen
    rw [hT.opened_of_begin]
    rfl
  obtain ⟨during, _, after, rfl, rfl, hunended, hended⟩ :=
    Action.exists_first_accepted (P := (· = .endStage)) ⟨_, hend, rfl⟩
  refine ⟨before, during, after, rfl, hok, ?_, ?_, ?_⟩
  · rw [run_append_cons]
    exact fun hmem => hunended _ hmem rfl
  · rw [run_append_cons]
    exact hended
  · rw [run_append_cons, run_append_cons]
    exact fun hagain => hlast (Action.mem_accepted_append_cons hagain)

/-- The run and its isolated form agree step by step, phase by phase. -/
theorem IsLastActivation.source?_eq (h : IsLastActivation sizes s commands before during after) :
    (run (isolated s before during after) (new sizes)).source? s =
      (run commands (new sizes)).source? s := by
  obtain ⟨rfl, hbegun, hunended, hended, hlast⟩ := h
  rw [run_append_cons] at hunended hended hlast
  rw [run_append_cons] at hlast
  have hnew : Outside s (new sizes) (new sizes) :=
    ⟨wellFormed_new sizes, wellFormed_new sizes, .refl s _, rfl⟩
  have hbefore : Outside s (run before (new sizes))
      (run (before.filter (·.reaches s)) (new sizes)) :=
    Action.runAll_filter step (·.reaches s) (fun _ => True) (fun hR hc _ => hR.kept hc)
      (fun hR hc _ => hR.dropped hc) before hnew fun _ _ => trivial
  have hduring : Inside s (run during _)
      (run (during.filter fun c => c.region = .bodies || c.reaches s) _) :=
    Action.runAll_filter step (fun c => c.region = .bodies || c.reaches s) (· ≠ .endStage)
      (fun hR _ hend => hR.kept hend)
      (fun hR hc _ => by
        rw [Bool.or_eq_false_iff, decide_eq_false_iff_not] at hc
        exact hR.dropped hc.1 hc.2)
      during (hbefore.begin hbegun) fun c hc heq => hunended (heq ▸ hc)
  have hbehind : Behind s (run after _) (run (after.filter (·.reaches s)) _) :=
    Action.runAll_filter step (·.reaches s) (· ≠ .beginStage s) (fun hR hc _ => hR.kept hc)
      (fun hR hc hfirst => hR.dropped hc hfirst)
      after (hduring.end hended) fun c hc heq => hlast (heq ▸ hc)
  rw [isolated, run_append_cons, run_append_cons, run_append_cons, run_append_cons]
  exact hbehind.source?_eq

end Runs

/-- **Stages are isolated from each other.**  Take any run after which a stage was begun and is not
active.  Then the stage has a last activation, and its source is the one of a shorter run: without
any stage change or statement outside of that activation, and without any header declaration that
writes nothing to the header of the stage, unless it declares a value that is passed between stages.
So neither another stage nor an earlier, discarded activation has a part in the source. -/
theorem source_isolated (sizes : TableSizes) (commands : List Command) (s : Stage) :
    let g := run commands (new sizes)
    g.isActivated s = true → g.active ≠ some s →
      (∃ text, g.source? s = some text) ∧
      (∃ before during after, IsLastActivation sizes s commands before during after) ∧
      ∀ before during after, IsLastActivation sizes s commands before during after →
        (run (isolated s before during after) (new sizes)).source? s = g.source? s := by
  intro g hactivated hinactive
  refine ⟨?_, exists_lastActivation hactivated hinactive, fun before during after h => h.source?_eq⟩
  obtain ⟨b, hb⟩ := Option.isSome_iff_exists.mp hactivated
  exact ⟨_, by rw [source?, if_neg hinactive, hb]; rfl⟩

/-- A fragment stage that is begun twice, between and behind other stages.  What remains is the
passed value and the second activation, with the refused beginning in it. -/
theorem source_isolated_second_activation :
    let uv : Variable := ⟨"uv", .numeric (.vector .float 2), 1, .varying false⟩
    let position : InterfaceVariable := ⟨"position", .numeric (.vector .float 3), 1, 0⟩
    let commands : List Command :=
      [.beginStage .fragment, .perform (.openBlock .otherwise), .perform .closeBlock, .endStage,
        .declareVertexInput position, .beginStage .vertex, .perform (.unpack 3), .endStage,
        .declareVarying uv .vertex .fragment,
        .beginStage .fragment, .perform (.unpack 3), .beginStage .vertex, .endStage,
        .beginStage .geometry, .perform (.openBlock .otherwise)]
    let g := run commands (new .standard)
    g.isActivated .fragment = true ∧ g.active ≠ some .fragment ∧
      (run [.declareVarying uv .vertex .fragment, .beginStage .fragment, .perform (.unpack 3),
        .beginStage .vertex, .endStage] (new .standard)).source? .fragment =
          g.source? .fragment := by
  intro uv position commands g
  have hactive : g.active = some .geometry := by
    unfold g commands uv position
    rfl
  have hactivated : g.isActivated .fragment = true := by
    unfold g commands uv position
    rfl
  have hinactive : g.active ≠ some .fragment := by
    rw [hactive]
    decide
  obtain ⟨-, -, hsource⟩ := source_isolated .standard commands .fragment hactivated hinactive
  refine ⟨hactivated, hinactive, ?_⟩
  have hlast : IsLastActivation .standard .fragment commands
      [.beginStage .fragment, .perform (.openBlock .otherwise), .perform .closeBlock, .endStage,
        .declareVertexInput position, .beginStage .vertex, .perform (.unpack 3), .endStage,
        .declareVarying uv .vertex .fragment]
      [.perform (.unpack 3), .beginStage .vertex]
      [.beginStage .geometry, .perform (.openBlock .otherwise)] := by
    unfold commands position uv
    refine ⟨rfl, rfl, ?_, rfl, ?_⟩
    · change Command.endStage ∉ [Command.perform (.unpack 3)]
      simp
    · change Command.beginStage .fragment ∉
        [Command.beginStage .geometry, .perform (.openBlock .otherwise)]
      simp
  exact hsource _ _ _ hlast

end Emitter

end GlslEmit
