/-
# The life of a stage

A stage is begun, is active, and is ended; it may be begun again, with a fresh body.  Which stage is
active, how deep its next line stands, what it remembers and which bodies are finished are kept
apart in the state, and they always fit together: they are what the history of accepted commands
says.

* `Emitter.exists_current`: the last accepted beginning, and the blocks that were opened and closed
  behind it;
* `Emitter.IsEnding` and `Emitter.exists_ending`: a finished body was closed by one end;
* `Emitter.stage_lifecycle` puts these together.
-/
import GlslEmit.Proofs.Emitter.Isolation
import GlslEmit.Proofs.Emitter.Blame
import GlslEmit.Proofs.Body.Unpacking

namespace GlslEmit

namespace Emitter

variable {sizes : TableSizes} {commands before during after : List Command}
variable {g g' : Emitter} {c : Command} {s : Stage} {history : List Command}

/-! ## The last beginning -/

/-- A history in which a stage is begun consists of the commands up to the last beginning and those
behind it. -/
theorem exists_eq_append_sinceBegin (h : hasBegun s history = true) :
    ∃ before, history = before ++ .beginStage s :: sinceBegin s history := by
  induction history using List.reverseRecOn with
  | nil => cases h
  | append_singleton history c ih =>
    rw [sinceBegin_snoc]
    cases hbegins : c.begins s with
    | true =>
      obtain ⟨rfl⟩ : c = .beginStage s := by
        cases c with
        | beginStage t => exact congrArg Command.beginStage (of_decide_eq_true hbegins)
        | _ => cases hbegins
      exact ⟨history, rfl⟩
    | false =>
      rw [hasBegun_snoc, hbegins, Bool.or_false] at h
      obtain ⟨before, hbefore⟩ := ih h
      refine ⟨before, ?_⟩
      rw [if_neg Bool.false_ne_true, ← List.cons_append, ← List.append_assoc, ← hbefore]

/-- While an activation is not over, its statements are all that were performed in it. -/
theorem lastActivation_of_open (h : hasEnded s history = false) :
    lastActivation s history = (sinceBegin s history).filterMap Command.statement? := by
  have hall : (sinceBegin s history).takeWhile (fun c => !c.ends) = sinceBegin s history := by
    rw [List.takeWhile_eq_self_iff]
    intro c hc
    rw [hasEnded, List.any_eq_false] at h
    simpa using h c hc
  rw [lastActivation, hall]

theorem Transition.active_before (h : Transition g c g') (hs : g'.active = some s)
    (hc : c.begins s = false) : g.active = some s ∧ ∀ t, c ≠ .beginStage t := by
  cases h with
  | @beginStage t idle =>
    cases hs
    exact absurd (decide_eq_true rfl) (Bool.eq_false_iff.mp hc)
  | endStage body flat => cases hs
  | _ => exact ⟨hs, fun t => by rintro ⟨⟩⟩

/-- Behind the beginning of the active stage no stage was begun. -/
theorem beginStage_notMem_sinceBegin (h : Chain Transition (new sizes) history g)
    (hs : g.active = some s) (t : Stage) : .beginStage t ∉ sinceBegin s history := by
  induction h with
  | refl => cases hs
  | @snoc calls c u v _ hT ih =>
    rw [sinceBegin_snoc]
    cases hbegins : c.begins s with
    | true => exact List.not_mem_nil
    | false =>
      obtain ⟨hu, hc⟩ := hT.active_before hs hbegins
      rw [if_neg Bool.false_ne_true, List.mem_append, List.mem_singleton, not_or]
      exact ⟨ih hu, fun heq => hc t heq.symm⟩

/-- The active stage was begun last of all stages.  The open blocks are those that were opened since
then, without those that were closed. -/
theorem exists_current (h : Chain Transition (new sizes) history g) (hs : g.active = some s) :
    ∃ before since, history = before ++ .beginStage s :: since ∧
      (∀ t, .beginStage t ∉ since) ∧ .endStage ∉ since ∧
      g.openBlocks + (since.filterMap Command.statement?).countP Statement.closes =
        (since.filterMap Command.statement?).countP Statement.opens := by
  have hbodies := (reflects_of_chain h).bodies
  obtain ⟨hbegun, hopen⟩ := (hbodies.active s).mp hs
  obtain ⟨before, hsplit⟩ := exists_eq_append_sinceBegin hbegun
  refine ⟨before, sinceBegin s history, hsplit, beginStage_notMem_sinceBegin h hs, ?_, ?_⟩
  · intro hend
    rw [hasEnded, List.any_eq_false] at hopen
    exact hopen _ hend rfl
  · have hdepth := hbodies.depth s hs
    have hpositive := (wellFormed_of_chain h (wellFormed_new sizes)).depth hs
    rw [lastActivation_of_open hopen, Statement.depthAfter] at hdepth
    rw [openBlocks]
    omega

/-- While no stage is active, the depth is zero. -/
theorem Reachable.depth_of_idle (hg : g.Reachable) (hidle : g.active = none) : g.depth = 0 := by
  obtain ⟨sizes, commands, rfl⟩ := hg
  have hkeep {g c g'} (hg : g.active = none → g.depth = 0) (hT : Transition g c g') :
      g'.active = none → g'.depth = 0 := by
    intro hidle
    rcases hT.of_idle hidle with ⟨hzero, -⟩ | hsame
    · exact hzero
    · rw [hsame.depth]
      exact hg (hsame.active ▸ hidle)
  have hchain := chain_run (wellFormed_new sizes) commands
  exact hchain.keeps (I := fun g => g.active = none → g.depth = 0) hkeep (fun _ => rfl) hidle

/-! ## Begun stages -/

theorem contains_activated (g : Emitter) (s : Stage) :
    g.activated.contains s = true ↔ g.isActivated s = true := by
  rw [activated, StageSet.contains_ofList, List.mem_filter, and_iff_right (Stage.mem_all s)]

theorem source?_isSome_iff (g : Emitter) (s : Stage) :
    (g.source? s).isSome = true ↔ g.isActivated s = true ∧ g.active ≠ some s := by
  rw [source?, isActivated]
  by_cases hs : g.active = some s
  · simp [hs]
  · rw [if_neg hs, Option.isSome_map, and_iff_left hs]

/-! ## Finished bodies -/

/-- While a stage is not active, only its beginning changes its body. -/
theorem body_of_inactive_chain {calls : List Command} (h : Chain Transition g calls g')
    (hs : g.active ≠ some s) (hbegin : .beginStage s ∉ calls) :
    (g'.outputs.get s).body = (g.outputs.get s).body ∧ g'.active ≠ some s := by
  induction h with
  | refl => exact ⟨rfl, hs⟩
  | @snoc calls c _ _ _ hT ih =>
    rw [List.mem_append, List.mem_singleton, not_or] at hbegin
    obtain ⟨hbody, hinactive⟩ := ih hbegin.1
    obtain ⟨hlast, hinactive'⟩ := hT.body_of_inactive hinactive fun hc => hbegin.2 hc.symm
    exact ⟨hlast.trans hbody, hinactive'⟩

/-- How the last activation of a stage ends: its end meets the body `b`, open and outside of all
blocks, and writes the closing text; no later end does so. -/
structure IsEnding (sizes : TableSizes) (s : Stage) (before during after : List Command)
    (b : Body) : Prop where
  body : (run (before ++ .beginStage s :: during) (new sizes)).openBody? = some (s, b)
  isOpen : b.closed = false
  ended : (step .endStage (run (before ++ .beginStage s :: during) (new sizes))).result =
    .ok (.stage s)
  blocks : enclosingBlocks b.lines = []
  nested : WellNested b.lines
  text : b.text = "void main()\n\x7b\n" ++ joinTexts (b.lines.map IndentedLine.text)
  closedText : b.close.text = b.text ++ "\x7d\n\n"
  last : ∀ earlier later, after = earlier ++ .endStage :: later →
    (step .endStage (run (before ++ .beginStage s :: (during ++ .endStage :: earlier))
      (new sizes))).result ≠ .ok (.stage s)

/-- An end answers with the stage that was active. -/
theorem active_of_endStage (hg : g.WellFormed)
    (h : (step .endStage g).result = .ok (.stage s)) : g.active = some s := by
  have hT := (step_settles .endStage g hg).of_ok h
  generalize (step .endStage g).state = t at hT
  cases hT with
  | @endStage a b body flat =>
    have hstep : step .endStage g = _ := Action.bind_accepted (endStage_accepted body flat) rfl
    rw [hstep] at h
    cases h
    exact (openBody?_eq_some_iff.mp body).1

/-- The accepted end of an activation meets an open body outside of all blocks. -/
theorem finished_of_end (hg : g.Reachable) (hs : g.active = some s)
    (hok : (step .endStage g).result.isOk = true) :
    ∃ b, g.openBody? = some (s, b) ∧ b.closed = false ∧ WellNested b.lines ∧
      enclosingBlocks b.lines = [] ∧ (step .endStage g).result = .ok (.stage s) ∧
      (step .endStage g).state = g.ended s b := by
  have hT := (step_settles .endStage g hg.wellFormed).of_isOk hok
  obtain ⟨b, hb⟩ := hg.wellFormed.openBody_of_active hs
  have hflat : ¬ g.depth > 1 := by
    generalize (step .endStage g).state = t at hT
    cases hT with
    | endStage body flat => exact flat
  have hstep : step .endStage g = _ := Action.bind_accepted (endStage_accepted hb hflat) rfl
  have htracked := hg.tracks s b hb
  refine ⟨b, hb, hg.closed_eq_false hb, htracked.nested, ?_, by rw [hstep]; rfl,
    by rw [hstep]; rfl⟩
  have hdepth := htracked.depth_eq
  exact List.length_eq_zero_iff.mp (by omega)

/-- A stage that was begun and is not active has a finished body: the end of its last activation
closed it, and nothing was written to it since. -/
theorem exists_ending (hactivated : (run commands (new sizes)).isActivated s = true)
    (hinactive : (run commands (new sizes)).active ≠ some s) :
    ∃ before during after b, IsLastActivation sizes s commands before during after ∧
      IsEnding sizes s before during after b ∧
      ((run commands (new sizes)).outputs.get s).body = some b.close := by
  obtain ⟨before, during, after, hlast⟩ := exists_lastActivation hactivated hinactive
  obtain ⟨hsplit, hbegun, hunended, hended, hagain⟩ := id hlast
  have hassoc (rest : List Command) : before ++ .beginStage s :: (during ++ .endStage :: rest) =
      (before ++ .beginStage s :: during) ++ .endStage :: rest := by simp
  have hreachable : (run (before ++ .beginStage s :: during) (new sizes)).Reachable :=
    ⟨sizes, _, rfl⟩
  have hactive : (run (before ++ .beginStage s :: during) (new sizes)).active = some s := by
    have hwell : (run before (new sizes)).WellFormed := wellFormed_run (wellFormed_new sizes) before
    have hT := (step_settles (.beginStage s) (run before (new sizes)) hwell).of_isOk hbegun
    rw [run_append_cons] at hunended ⊢
    refine active_of_chain (chain_run (hT.wellFormed hwell) during) ?_ hunended
    rw [hT.opened_of_begin]
    rfl
  obtain ⟨b, hb, hopen, hnested, hblocks, hresult, hstate⟩ :=
    finished_of_end hreachable hactive hended
  -- behind the end the stage is left alone
  have hidle : (step .endStage (run (before ++ .beginStage s :: during) (new sizes))).state.active ≠
      some s := by
    rw [hstate]
    exact (Option.some_ne_none s).symm
  have hbehind (calls rest : List Command) (hafter : after = calls ++ rest) :
      (((run (before ++ .beginStage s :: (during ++ .endStage :: calls)) (new sizes)).outputs.get
        s).body = some b.close) ∧
      (run (before ++ .beginStage s :: (during ++ .endStage :: calls)) (new sizes)).active ≠
        some s := by
    have hcalls : .beginStage s ∉ Action.accepted step calls
        (step .endStage (run (before ++ .beginStage s :: during) (new sizes))).state := by
      intro hmem
      refine hagain ?_
      rw [hassoc, run_append_cons, hafter, Action.accepted_append]
      exact List.mem_append_left _ hmem
    have hwell := step_wellFormed hreachable.wellFormed .endStage
    obtain ⟨hbody, hinactive⟩ := body_of_inactive_chain (chain_run hwell calls) hidle hcalls
    rw [hassoc, run_append_cons]
    refine ⟨hbody.trans ?_, hinactive⟩
    rw [hstate, ended, body_setBody, if_pos rfl]
  refine ⟨before, during, after, b, hlast, ?_, ?_⟩
  · refine ⟨hb, hopen, hresult, hblocks, hnested, ?_, ?_, fun earlier later hafter hagain' => ?_⟩
    · rw [Body.text, hopen, if_neg Bool.false_ne_true, String.append_empty]
      rfl
    · rw [Body.text, Body.text, hopen, if_neg Bool.false_ne_true, String.append_empty]
      rfl
    · exact (hbehind earlier _ hafter).2 (active_of_endStage (wellFormed_run (wellFormed_new sizes) _)
        hagain')
  · rw [hsplit]
    exact (hbehind after [] (List.append_nil after).symm).1

/-! ## The whole life -/

/-- A stage is begun with a warning exactly if it was begun before. -/
theorem beginStage_log (hidle : g.active = none) (s : Stage) :
    step (.beginStage s) g = .accepted (g.opened s) .done
      ((if g.isActivated s then [.bodyDiscarded s] else []) ++ [.stageBegun s]) := by
  have hstep : step (.beginStage s) g = _ :=
    Action.bind_accepted (beginStage_accepted hidle) rfl
  rw [hstep, List.append_nil]

/-- **The life of a stage.**  In every reachable state the following holds.  The active stage has an
open body and stands at least one deep; it was begun last of all stages, and its open blocks are
those that were opened since, without those that were closed.  While no stage is active, the depth
is zero and nothing is remembered.  The body of a stage that was begun and is not active consists
of the entry text, lines without an open block, and the closing text that the end of the last
activation wrote, and no other.  So a stage has a source exactly if it was begun and is not active;
the begun stages are those with an accepted beginning, whatever their headers hold; the error that
no stage is active occurs only while this is so, and never for the lack of a body; and a beginning
warns exactly if it is accepted and an earlier one was accepted, too. -/
theorem stage_lifecycle (sizes : TableSizes) (commands : List Command) :
    let g := run commands (new sizes)
    let calls := Action.accepted step commands (new sizes)
    (∀ s, g.active = some s →
      (∃ b, g.openBody? = some (s, b)) ∧ 1 ≤ g.depth ∧
      ∃ before since, calls = before ++ .beginStage s :: since ∧
        (∀ t, .beginStage t ∉ since) ∧ .endStage ∉ since ∧
        g.openBlocks + (since.filterMap Command.statement?).countP Statement.closes =
          (since.filterMap Command.statement?).countP Statement.opens) ∧
    (g.active = none → g.depth = 0 ∧ g.unpacked = .empty) ∧
    (∀ s, g.isActivated s = true → g.active ≠ some s →
      ∃ before during after b, IsLastActivation sizes s commands before during after ∧
        IsEnding sizes s before during after b ∧ (g.outputs.get s).body = some b.close) ∧
    (∀ s, (g.source? s).isSome = true ↔ .beginStage s ∈ calls ∧ g.active ≠ some s) ∧
    (∀ s, g.activated.contains s = true ↔ .beginStage s ∈ calls) ∧
    (∀ c operation, (step c g).result = .error (.sequence (.stageInactive operation)) →
      g.active = none) ∧
    ∀ s, (∃ e ∈ (step (.beginStage s) g).log, e.level = .warn) ↔
      (step (.beginStage s) g).result.isOk = true ∧ .beginStage s ∈ calls := by
  intro g calls
  have hchain : Chain Transition (new sizes) calls g := chain_run (wellFormed_new sizes) commands
  have hg : g.Reachable := ⟨sizes, commands, rfl⟩
  have hbegun (s : Stage) : g.isActivated s = true ↔ .beginStage s ∈ calls :=
    isActivated_run sizes commands s
  refine ⟨fun s hs => ?_, fun hidle => ?_, fun s hactivated hinactive => ?_, fun s => ?_,
    fun s => ?_, fun c operation hinactive => ?_, fun s => ?_⟩
  · exact ⟨hg.wellFormed.openBody_of_active hs, hg.wellFormed.depth hs, exists_current hchain hs⟩
  · exact ⟨hg.depth_of_idle hidle, hg.unpacked_of_idle hidle⟩
  · exact exists_ending hactivated hinactive
  · rw [source?_isSome_iff, hbegun]
  · rw [contains_activated, hbegun]
  · exact idle_of_stageInactive hg.wellFormed hinactive
  · cases hactive : g.active with
    | none =>
      rw [beginStage_log hactive, ← hbegun]
      cases g.isActivated s <;> simp [Outcome.accepted, Event.level, Except.isOk, Except.toBool]
    | some a =>
      have hrefused : beginStage s g = .refused g (.sequence (.stageAlreadyActive a s)) := by
        rw [beginStage, hactive]
      have hstep : step (.beginStage s) g = _ := Action.bind_refused hrefused _
      rw [hstep]
      simp [Outcome.refused, Except.isOk, Except.toBool]

/-- A geometry stage that is finished, a fragment stage in its second activation with one open
block, and a vertex stage that has only a header.  The first end of the fragment stage is refused,
since a block is open. -/
theorem stage_lifecycle_second_activation :
    let position : InterfaceVariable := ⟨"position", .numeric (.vector .float 3), 1, 0⟩
    let commands : List Command :=
      [.declareVertexInput position, .beginStage .geometry, .endStage, .beginStage .fragment,
        .perform (.openBlock .otherwise), .endStage, .perform .closeBlock, .endStage,
        .beginStage .fragment, .perform (.openBlock (.ifThen "c"))]
    let g := run commands (new .standard)
    let calls := Action.accepted step commands (new .standard)
    g.active = some .fragment ∧ 1 ≤ g.depth ∧
      (∃ before since, calls = before ++ .beginStage .fragment :: since ∧
        (∀ t, .beginStage t ∉ since) ∧ .endStage ∉ since ∧
        g.openBlocks + (since.filterMap Command.statement?).countP Statement.closes =
          (since.filterMap Command.statement?).countP Statement.opens) ∧
      (∃ before during after b, IsEnding .standard .geometry before during after b ∧
        (g.outputs.get .geometry).body = some b.close) ∧
      (g.source? .geometry).isSome = true ∧ (g.source? .fragment).isSome = false ∧
      g.activated.contains .vertex = false := by
  intro position commands g calls
  have hactive : g.active = some .fragment := by
    unfold g commands position
    rfl
  have hcalls : calls = [.declareVertexInput position, .beginStage .geometry, .endStage,
      .beginStage .fragment, .perform (.openBlock .otherwise), .perform .closeBlock, .endStage,
      .beginStage .fragment, .perform (.openBlock (.ifThen "c"))] := by
    unfold calls commands position
    rfl
  have hfinished : g.isActivated .geometry = true := by
    unfold g commands position
    rfl
  have hgeometry : .beginStage .geometry ∈ calls := by simp [hcalls]
  have hvertex : .beginStage .vertex ∉ calls := by simp [hcalls]
  have hinactive : g.active ≠ some .geometry := by
    rw [hactive]
    decide
  obtain ⟨hcurrent, -, hending, hsource, hbegun, -, -⟩ := stage_lifecycle .standard commands
  obtain ⟨-, hdepth, hblocks⟩ := hcurrent .fragment hactive
  obtain ⟨before, during, after, b, -, hend, hbody⟩ := hending .geometry hfinished hinactive
  refine ⟨hactive, hdepth, hblocks, ⟨before, during, after, b, hend, hbody⟩,
    (hsource .geometry).mpr ⟨hgeometry, hinactive⟩, ?_, ?_⟩
  · rw [Bool.eq_false_iff]
    exact fun hsome => ((hsource .fragment).mp hsome).2 hactive
  · rw [Bool.eq_false_iff]
    exact fun hmem => hvertex ((hbegun .vertex).mp hmem)

end Emitter

end GlslEmit
