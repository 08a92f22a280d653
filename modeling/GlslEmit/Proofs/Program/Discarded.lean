/-
# Discarded activations

A stage that is begun again drops the body of its activation before.  What a program keeps of the
dropped body is the largest sub-index that it used: two runs that differ in the dropped statements
end with the same names and the same emitter, and are built alike exactly if the used sub-indices
need equally many push-constant fields.

* `IsActivation` is the place of one activation in a run;
* `Alongside` relates two programs with the same names by a relation of their emitters;
* `Alongside.again`: behind the second beginning the two runs have everything but the largest used
  sub-index in common;
* `build_eq_iff`: what the largest used sub-index means for the built program;
* `discarded_activation` puts both together.
-/
import Mathlib.Order.Monotone.Basic
import GlslEmit.Proofs.Emitter.Discarding
import GlslEmit.Proofs.Program.Effect
import GlslEmit.Proofs.Program.PushConstants

namespace GlslEmit

/-! ## The text of the push-constant block -/

/-- A document grows with every part that is not empty. -/
theorem strictMono_length_joinTexts {f : Nat → String} (hf : ∀ i, 0 < (f i).length) :
    StrictMono fun n => (joinTexts ((List.range n).map f)).length := by
  apply strictMono_nat_of_lt_succ
  intro n
  have hlast : joinTexts ((List.range (n + 1)).map f) =
      joinTexts ((List.range n).map f) ++ (f n ++ "") := by
    rw [List.range_succ, List.map_append, joinTexts_append]
    rfl
  rw [hlast, String.length_append, String.append_empty]
  exact Nat.lt_add_of_pos_right (hf n)

/-- The block tells how many fields it has. -/
theorem pushConstants_text_injective {m n : UInt32}
    (h : (Declaration.pushConstants m).text = (Declaration.pushConstants n).text) : m = n := by
  have hcancel {a b c d e f x y : String}
      (h : a ++ b ++ c ++ x ++ d ++ e ++ f = a ++ b ++ c ++ y ++ d ++ e ++ f) : x = y := by
    simpa only [String.append_left_inj, String.append_right_inj] using h
  have hfields : pushConstantFields m = pushConstantFields n := hcancel h
  have hline (i : Nat) : 0 < ("\tuint " ++ subIndexField (UInt32.ofNat i) ++ ";\n").length := by
    have hend : (";\n" : String).length = 2 := rfl
    rw [String.length_append, hend]
    omega
  have hlength := (strictMono_length_joinTexts hline).injective (congrArg String.length hfields)
  exact UInt32.toNat_inj.mp hlength

/-- No block is written as nothing. -/
theorem pushConstants_text_ne_empty (n : UInt32) : (Declaration.pushConstants n).text ≠ "" := by
  have hend (text : String) : text ++ ";\n\n" ≠ "" := by
    intro h
    have hlength := congrArg String.length h
    have hthree : (";\n\n" : String).length = 3 := rfl
    have hzero : ("" : String).length = 0 := rfl
    rw [String.length_append, hthree, hzero] at hlength
    omega
  exact hend _

/-- The text of a block that may be missing tells whether it is there, and how many fields it has. -/
theorem fields_eq_of_text {fields fields' : Option UInt32}
    (h : joinTexts ((fields.toList.map Declaration.pushConstants).map Declaration.text) =
      joinTexts ((fields'.toList.map Declaration.pushConstants).map Declaration.text)) :
    fields = fields' := by
  have hsome (n : UInt32) : joinTexts (((some n).toList.map Declaration.pushConstants).map
      Declaration.text) = (Declaration.pushConstants n).text := String.append_empty
  cases fields with
  | none =>
    cases fields' with
    | none => rfl
    | some n =>
      rw [hsome] at h
      exact absurd h.symm (pushConstants_text_ne_empty n)
  | some m =>
    rw [hsome] at h
    cases fields' with
    | none => exact absurd h (pushConstants_text_ne_empty m)
    | some n =>
      rw [hsome] at h
      rw [pushConstants_text_injective h]

namespace Program

variable {p q : Program} {c : Command}

/-! ## Programs side by side -/

/-- Two programs with the same names, and emitters in a relation. -/
structure Alongside (R : Emitter → Emitter → Prop) (p q : Program) : Prop where
  types : q.types = p.types
  scope : q.scope = p.scope
  emitter : R p.emitter q.emitter

/-- A command that both emitters accept, or neither does, is accepted by both programs or by
neither. -/
theorem Alongside.kept {R : Emitter → Emitter → Prop} (h : Alongside R p q)
    (hok : (Emitter.step c.emission q.emitter).result.isOk =
      (Emitter.step c.emission p.emitter).result.isOk)
    (hR : R (Emitter.step c.emission p.emitter).state (Emitter.step c.emission q.emitter).state) :
    Alongside R (step c p).state (step c q).state := by
  have hname : c.checkName q = c.checkName p := by
    unfold Command.checkName
    rw [h.types, h.scope]
  rw [step_eq, step_eq, Command.effect, Command.effect, hname]
  cases c.checkName p with
  | error e => exact h
  | ok u =>
    rcases hp : Emitter.step c.emission p.emitter with ⟨result, g, log⟩
    rcases hq : Emitter.step c.emission q.emitter with ⟨result', g', log'⟩
    rw [hp, hq] at hok hR
    cases result with
    | error e =>
      cases result' with
      | error e' => exact ⟨h.types, h.scope, hR⟩
      | ok r' => cases hok
    | ok r =>
      cases result' with
      | error e' => cases hok
      | ok r' =>
        refine ⟨?_, ?_, hR⟩
        · simp only [Outcome.accepted, Command.settle, h.types]
        · simp only [Outcome.accepted, Command.settle, h.scope]

/-- A stage change or a statement takes no name. -/
theorem step_of_bodies (hc : c.emission.region = .bodies) :
    (step c p).result.isOk = (Emitter.step c.emission p.emitter).result.isOk ∧
      (step c p).state.types = p.types ∧ (step c p).state.scope = p.scope ∧
      (step c p).state.emitter = (Emitter.step c.emission p.emitter).state := by
  have hunnamed : c.addedStruct? = none ∧ c.global? = none := by
    cases c with
    | beginStage s => exact ⟨rfl, rfl⟩
    | endStage => exact ⟨rfl, rfl⟩
    | useIndex index => exact ⟨rfl, rfl⟩
    | direct e => exact ⟨rfl, rfl⟩
    | _ => cases hc
  rw [step_eq, effect_of_unnamed p hunnamed.1 hunnamed.2]
  cases Emitter.step c.emission p.emitter with
  | mk result g log => cases result <;> exact ⟨rfl, rfl, rfl, rfl⟩

/-- A stage change or a statement in both programs. -/
theorem Alongside.bodies {R R' : Emitter → Emitter → Prop} (h : Alongside R p q)
    (hc : c.emission.region = .bodies)
    (hR : R' (Emitter.step c.emission p.emitter).state (Emitter.step c.emission q.emitter).state) :
    Alongside R' (step c p).state (step c q).state := by
  obtain ⟨-, htypes, hscope, hemitter⟩ := step_of_bodies (p := p) hc
  obtain ⟨-, htypes', hscope', hemitter'⟩ := step_of_bodies (p := q) hc
  refine ⟨?_, ?_, ?_⟩
  · rw [htypes, htypes', h.types]
  · rw [hscope, hscope', h.scope]
  · rw [hemitter, hemitter']
    exact hR

/-- What both programs keep alongside after every command, they keep after a run. -/
theorem Alongside.kept_run {R : Emitter → Emitter → Prop} (allowed : Command → Prop)
    (hstep : ∀ {c p q}, Alongside R p q → ((step c p).result.isOk = true → allowed c) →
      Alongside R (step c p).state (step c q).state)
    (commands : List Command) (h : Alongside R p q)
    (hallowed : ∀ c ∈ Action.accepted step commands p, allowed c) :
    Alongside R (run commands p) (run commands q) := by
  have hall : commands.filter (fun _ => true) = commands :=
    List.filter_eq_self.mpr fun _ _ => rfl
  have hruns := Action.runAll_filter step (fun _ => true) allowed (fun h _ => hstep h)
    (fun _ hc => by cases hc) commands h hallowed
  rw [hall] at hruns
  exact hruns

/-! ## One activation -/

/-- The commands `during` are those of one activation of a stage: behind the commands `before` its
beginning is accepted, then its end, and no end in between. -/
structure IsActivation (sizes : TableSizes) (s : Stage) (before : List Command) (b : Command)
    (during : List Command) (e : Command) : Prop where
  begins : b.emission = .beginStage s
  ends : e.emission = .endStage
  begun : (step b (run before (new sizes))).result.isOk = true
  unended : ∀ c ∈ Action.accepted step during (run (before ++ [b]) (new sizes)),
    c.emission ≠ .endStage
  ended : (step e (run (before ++ b :: during) (new sizes))).result.isOk = true

/-- The commands that write to no body. -/
def outsideBodies (commands : List Command) : List Command :=
  commands.filter fun c => c.emission.region ≠ .bodies

section Runs

variable {sizes : TableSizes} {s : Stage} {before during during' after : List Command}
  {b e : Command}

theorem run_append (commands later : List Command) (p : Program) :
    run (commands ++ later) p = run later (run commands p) :=
  List.foldl_append

theorem wellFormed_run (sizes : TableSizes) (commands : List Command) :
    (run commands (new sizes)).emitter.WellFormed :=
  Reachable.wellFormed ⟨sizes, commands, rfl⟩

theorem IsActivation.active (h : IsActivation sizes s before b during e) :
    (run (before ++ [b]) (new sizes)).emitter.active = some s := by
  have hregion : b.emission.region = .bodies := by rw [h.begins]; rfl
  have hstep := step_of_bodies (p := run before (new sizes)) hregion
  have hok := h.begun
  rw [hstep.1, h.begins] at hok
  have hT := (Emitter.step_settles (.beginStage s) _ (wellFormed_run sizes before)).of_isOk hok
  rw [run_append]
  show (step b (run before (new sizes))).state.emitter.active = some s
  rw [hstep.2.2.2, h.begins, hT.opened_of_begin]
  rfl

/-- During an activation, the run goes along with the one that leaves its statements out. -/
theorem IsActivation.alongside (h : IsActivation sizes s before b during e) :
    Alongside (Emitter.During s) (run (before ++ b :: during) (new sizes))
      (run (outsideBodies during) (run (before ++ [b]) (new sizes))) := by
  have hsplit : before ++ b :: during = before ++ [b] ++ during := by simp
  rw [hsplit, run_append]
  refine Action.runAll_filter step (fun c => c.emission.region ≠ .bodies)
    (fun c => c.emission ≠ .endStage) ?_ ?_ during ?_ h.unended
  · intro c p q hpq hkeep _
    have hregion : c.emission.region ≠ .bodies := of_decide_eq_true hkeep
    obtain ⟨hresult, hduring⟩ := hpq.emitter.kept hregion
    exact hpq.kept (by rw [hresult]) hduring
  · intro c p q hpq hdrop hend
    have hregion : c.emission.region = .bodies := by
      simpa using hdrop
    obtain ⟨hok, htypes, hscope, hemitter⟩ := step_of_bodies (p := p) hregion
    refine ⟨hpq.types.trans htypes.symm, hpq.scope.trans hscope.symm, ?_⟩
    rw [hemitter]
    exact hpq.emitter.dropped hregion fun haccepted => hend (hok.trans haccepted)
  · exact ⟨rfl, rfl, .refl (wellFormed_run sizes _) h.active⟩

/-- Two activations with the same declarations differ in the body of the stage alone. -/
theorem IsActivation.finished (h : IsActivation sizes s before b during e)
    (h' : IsActivation sizes s before b during' e)
    (hsame : outsideBodies during' = outsideBodies during) :
    Alongside (Emitter.Finished s) (run (before ++ b :: (during ++ [e])) (new sizes))
      (run (before ++ b :: (during' ++ [e])) (new sizes)) := by
  have hboth := h'.alongside
  rw [hsame] at hboth
  have hduring : Alongside (Emitter.During s) (run (before ++ b :: during) (new sizes))
      (run (before ++ b :: during') (new sizes)) :=
    ⟨hboth.types.symm.trans h.alongside.types, hboth.scope.symm.trans h.alongside.scope,
      h.alongside.emitter.join hboth.emitter⟩
  have hregion : e.emission.region = .bodies := by rw [h.ends]; rfl
  have hended := (step_of_bodies hregion).1.symm.trans h.ended
  have hended' := (step_of_bodies hregion).1.symm.trans h'.ended
  have hlast (during : List Command) : run (before ++ b :: (during ++ [e])) (new sizes) =
      (step e (run (before ++ b :: during) (new sizes))).state := by
    have hsplit : before ++ b :: (during ++ [e]) = before ++ b :: during ++ [e] := by simp
    rw [hsplit, run_append]
    rfl
  rw [hlast, hlast]
  refine hduring.bodies hregion ?_
  rw [h.ends] at hended hended' ⊢
  exact hduring.emitter.end hended hended'

/-- From the second beginning on two runs have everything but the largest used sub-index in
common. -/
theorem Alongside.again {p q : Program} (h : Alongside (Emitter.Finished s) p q)
    (hagain : ∃ c ∈ Action.accepted step after p, c.emission = .beginStage s) :
    Alongside (fun g g' => g' = g) (run after p) (run after q) := by
  obtain ⟨early, c, late, rfl, hc, hfirst, hok⟩ := Action.exists_first_accepted hagain
  have hbodies {c : Command} (hc : c.emission = .beginStage s) : c.emission.region = .bodies := by
    rw [hc]
    rfl
  have hearly : Alongside (Emitter.Finished s) (run early p) (run early q) := by
    refine h.kept_run (fun c => c.emission ≠ .beginStage s) ?_ early hfirst
    intro c p q hpq hallowed
    have hbegin : (Emitter.step c.emission p.emitter).result.isOk = true →
        c.emission ≠ .beginStage s := fun haccepted hc =>
      hallowed ((step_of_bodies (hbodies hc)).1.trans haccepted) hc
    obtain ⟨hresult, hfinished⟩ := hpq.emitter.kept hbegin
    exact hpq.kept hresult hfinished
  have hbegun : Alongside (fun g g' => g' = g) (step c (run early p)).state
      (step c (run early q)).state := by
    have haccepted : (Emitter.step c.emission (run early p).emitter).result.isOk = true :=
      (step_of_bodies (hbodies hc)).1.symm.trans hok
    refine hearly.bodies (hbodies hc) ?_
    rw [hc] at haccepted ⊢
    exact hearly.emitter.begin.2 haccepted
  rw [run_append, run_append]
  refine hbegun.kept_run (fun _ => True) ?_ late fun _ _ => trivial
  intro c p q hpq _
  exact hpq.kept (by rw [hpq.emitter]) (by rw [hpq.emitter])

/-- A stage that was begun has a body. -/
theorem IsActivation.activated (h : IsActivation sizes s before b during e) :
    (run (before ++ b :: (during ++ e :: after)) (new sizes)).emitter.isActivated s = true := by
  have hreflects := Emitter.reflects_of_chain
    (emitter_chain sizes (before ++ b :: (during ++ e :: after)))
  have hmem : b ∈ Action.accepted step (before ++ b :: (during ++ e :: after)) (new sizes) := by
    have hsplit : Action.accepted step (before ++ b :: (during ++ e :: after)) (new sizes) = _ :=
      Action.accepted_append_cons h.begun
    rw [hsplit]
    simp
  have hbegun : Emitter.hasBegun s ((Action.accepted step (before ++ b :: (during ++ e :: after))
      (new sizes)).map Command.emission) = true :=
    (Emitter.hasBegun_iff s _).mpr (List.mem_map.mpr ⟨b, hmem, h.begins⟩)
  rw [Emitter.isActivated, hreflects.bodies.body s, if_pos hbegun]
  rfl

end Runs

/-! ## The built program -/

/-- The finished preamble ends with the block for the largest used sub-index, if there is one. -/
theorem finished_eq_fields (p : Program) :
    p.finished =
      { p.emitter with
        declarations := p.emitter.declarations ++
          (p.highestIndex.map subIndexFields).toList.map Declaration.pushConstants } := by
  unfold finished
  cases p.highestIndex with
  | none => simp
  | some max => rfl

/-- Of two programs with the same emitter, in which some stage was begun, the same is built exactly
if a stage is active or the used sub-indices need equally many fields. -/
theorem build_eq_iff {s : Stage} (hemitter : q.emitter = p.emitter)
    (hactivated : p.emitter.isActivated s = true)
    (hp : ∀ max, p.highestIndex = some max → max < maxSubIndices)
    (hq : ∀ max, q.highestIndex = some max → max < maxSubIndices) :
    (build q).result = (build p).result ↔ p.emitter.isActive = true ∨
      q.highestIndex.map subIndexFields = p.highestIndex.map subIndexFields := by
  cases hactive : p.emitter.active with
  | some a =>
    have hisActive : p.emitter.isActive = true := by
      rw [Emitter.isActive, hactive]
      rfl
    rw [build_of_active hactive, build_of_active (hemitter ▸ hactive)]
    exact iff_of_true rfl (Or.inl hisActive)
  | none =>
    have hidle : ¬ p.emitter.isActive = true := by
      rw [Emitter.isActive, hactive]
      exact Bool.false_ne_true
    obtain ⟨texts, htexts⟩ := build_of_idle hactive hp
    obtain ⟨texts', htexts'⟩ := build_of_idle (hemitter ▸ hactive) hq
    have hstages := (sources_of_build htexts).2
    have hstages' := (sources_of_build htexts').2
    rw [htexts, htexts', or_iff_right hidle]
    constructor
    · intro h
      -- the begun stage has the same text in both
      have hsources : q.finished.sources = p.finished.sources := by
        rw [← hstages, ← hstages', Except.ok.inj h]
      obtain ⟨body, hbody⟩ := Option.isSome_iff_exists.mp hactivated
      have hsource {r : Program} (hr : r.emitter = p.emitter) : r.finished.source? s =
          some (preambleText (p.emitter.declarations ++
              (r.highestIndex.map subIndexFields).toList.map Declaration.pushConstants) ++
            headerText (p.emitter.outputs.get s).header ++ body.text) := by
        rw [finished_eq_fields, hr, Emitter.source?]
        simp only [hactive, hbody, reduceCtorEq, if_false, Option.map_some, Emitter.preamble]
      have hmem := mem_sources_iff.mpr (hsource hemitter)
      rw [hsources] at hmem
      have htext := Option.some.inj ((mem_sources_iff.mp hmem).symm.trans (hsource rfl))
      apply fields_eq_of_text
      simpa only [preambleText, List.map_append, joinTexts_append, String.append_left_inj,
        String.append_right_inj] using htext
    · intro h
      have hfinished : q.finished = p.finished := by
        rw [finished_eq_fields, finished_eq_fields, hemitter, h]
      have hsame : texts'.stages = texts.stages := by
        rw [hstages, hstages', hfinished]
      cases texts
      cases texts'
      exact congrArg (fun stages => Except.ok (Sources.mk stages)) hsame

/-- The sub-indices that the accepted commands of a run use. -/
def usedIndices (sizes : TableSizes) (commands : List Command) : List UInt32 :=
  (Action.accepted step commands (new sizes)).filterMap Command.usedIndex?

theorem highestIndex_run (sizes : TableSizes) (commands : List Command) :
    (run commands (new sizes)).highestIndex = (usedIndices sizes commands).max? :=
  highestIndex_of_chain (chain_run (Emitter.wellFormed_new sizes) commands) rfl

theorem small_of_highestIndex {sizes : TableSizes} {commands : List Command} {max : UInt32}
    (h : (run commands (new sizes)).highestIndex = some max) : max < maxSubIndices := by
  rw [highestIndex_run] at h
  exact small_of_used (chain_run (p := new sizes) (Emitter.wellFormed_new sizes) commands)
    (max?_eq_some_iff.mp h).1

/-- **A discarded activation leaves nothing behind but its largest sub-index.**  Take two runs that
differ in the statements and the uses of sub-indices within one completed activation of a stage, and
let the stage be begun again behind it.  Then both runs end with the same types, the same scope and
the same emitter, and what is built from them is the same exactly if a stage is still active, so
that both are refused, or if the largest used sub-indices, those of the discarded activation
included, need equally many push-constant fields. -/
theorem discarded_activation (sizes : TableSizes) (s : Stage)
    (before during during' after : List Command) (b e : Command)
    (h : IsActivation sizes s before b during e) (h' : IsActivation sizes s before b during' e)
    (hsame : outsideBodies during' = outsideBodies during)
    (hagain : ∃ c ∈ Action.accepted step after (run (before ++ b :: (during ++ [e])) (new sizes)),
      c.emission = .beginStage s) :
    let commands := before ++ b :: (during ++ e :: after)
    let commands' := before ++ b :: (during' ++ e :: after)
    let p := run commands (new sizes)
    let p' := run commands' (new sizes)
    p'.types = p.types ∧ p'.scope = p.scope ∧ p'.emitter = p.emitter ∧
      ((build p').result = (build p).result ↔ p.emitter.isActive = true ∨
        (usedIndices sizes commands').max?.map subIndexFields =
          (usedIndices sizes commands).max?.map subIndexFields) := by
  intro commands commands' p p'
  have hrun (during : List Command) : run (before ++ b :: (during ++ e :: after)) (new sizes) =
      run after (run (before ++ b :: (during ++ [e])) (new sizes)) := by
    rw [← run_append]
    simp
  have halong : Alongside (fun g g' => g' = g) p p' := by
    have hagain' := (h.finished h' hsame).again hagain
    rw [← hrun, ← hrun] at hagain'
    exact hagain'
  have hbuild := build_eq_iff halong.emitter h.activated (fun _ => small_of_highestIndex)
    fun _ => small_of_highestIndex
  rw [highestIndex_run, highestIndex_run] at hbuild
  exact ⟨halong.types, halong.scope, halong.emitter, hbuild⟩

/-- An activation without an end among its commands. -/
theorem IsActivation.of_endless {sizes : TableSizes} {s : Stage} {before during : List Command}
    (hbegun : (step (.beginStage s) (run before (new sizes))).result.isOk = true)
    (hendless : ∀ c ∈ during, c.emission ≠ .endStage)
    (hended : (step .endStage (run (before ++ .beginStage s :: during) (new sizes))).result.isOk =
      true) : IsActivation sizes s before (.beginStage s) during .endStage :=
  ⟨rfl, rfl, hbegun, fun c hc => hendless c ((Action.accepted_sublist during _).subset hc), hended⟩

/-- A vertex stage whose first body is dropped: one run uses the sub-index 2 in it, inside a block,
and the other one 3.  Both need two fields. -/
theorem discarded_activation_same_fields :
    let position : InterfaceVariable := ⟨"position", .numeric (.vector .float 3), 1, 0⟩
    let during : List Command :=
      [.direct (.perform (.openBlock .otherwise)), .useIndex 2, .addVertexInput position,
        .direct (.perform .closeBlock)]
    let during' : List Command := [.addVertexInput position, .useIndex 3, .beginStage .fragment]
    let after : List Command :=
      [.useIndex 1, .beginStage .fragment, .useIndex 1, .endStage, .beginStage .vertex, .endStage]
    (build (run (.beginStage .vertex :: (during' ++ .endStage :: after)) (new .standard))).result =
      (build (run (.beginStage .vertex :: (during ++ .endStage :: after))
        (new .standard))).result := by
  intro position during during' after
  have h : IsActivation .standard .vertex [] (.beginStage .vertex) during .endStage := by
    refine .of_endless (by decide +kernel) ?_ (by decide +kernel)
    simp [during, Command.emission]
  have h' : IsActivation .standard .vertex [] (.beginStage .vertex) during' .endStage := by
    refine .of_endless (by decide +kernel) ?_ (by decide +kernel)
    simp [during', Command.emission]
  have hagain : ∃ c ∈ Action.accepted step after
      (run ([] ++ .beginStage .vertex :: (during ++ [.endStage])) (new .standard)),
        c.emission = .beginStage .vertex := by
    refine ⟨.beginStage .vertex, ?_, rfl⟩
    have hsplit : after = [.useIndex 1, .beginStage .fragment, .useIndex 1, .endStage] ++
      .beginStage .vertex :: [.endStage] := rfl
    rw [hsplit, Action.accepted_append_cons (by decide +kernel)]
    simp
  have hfields : (usedIndices .standard (.beginStage .vertex ::
      (during' ++ .endStage :: after))).max?.map subIndexFields =
      (usedIndices .standard (.beginStage .vertex ::
        (during ++ .endStage :: after))).max?.map subIndexFields := by
    decide +kernel
  exact (discarded_activation .standard .vertex [] during during' after (.beginStage .vertex)
    .endStage h h' rfl hagain).2.2.2.mpr (Or.inr hfields)

/-- A dropped body leaves a trace after all: the block for the sub-index that it alone used. -/
theorem discarded_activation_not_traceless :
    let during : List Command := [.useIndex 3]
    let after : List Command := [.beginStage .vertex, .endStage]
    IsActivation .standard .vertex [] (.beginStage .vertex) during .endStage ∧
      IsActivation .standard .vertex [] (.beginStage .vertex) [] .endStage ∧
      outsideBodies [] = outsideBodies during ∧
      (∃ c ∈ Action.accepted step after
        (run (.beginStage .vertex :: (during ++ [.endStage])) (new .standard)),
        c.emission = .beginStage .vertex) ∧
      (build (run (.beginStage .vertex :: .endStage :: after) (new .standard))).result ≠
        (build (run (.beginStage .vertex :: (during ++ .endStage :: after))
          (new .standard))).result := by
  intro during after
  refine ⟨.of_endless (by decide +kernel) ?_ (by decide +kernel),
    .of_endless (by decide +kernel) ?_ (by decide +kernel), rfl,
    ⟨.beginStage .vertex, List.mem_cons_self, rfl⟩, fun hbuild => ?_⟩
  · simp [during, Command.emission]
  · simp
  · -- the emitters are equal, so the builds differ by the largest used sub-index
    have hiff := build_eq_iff (s := .vertex)
      (p := run (.beginStage .vertex :: (during ++ .endStage :: after)) (new .standard))
      (q := run (.beginStage .vertex :: .endStage :: after) (new .standard))
      rfl (by decide +kernel) (fun _ => small_of_highestIndex) fun _ => small_of_highestIndex
    rcases hiff.mp hbuild with hactive | hfields
    · exact absurd hactive (by decide +kernel)
    · exact absurd hfields (by decide +kernel)

end Program

end GlslEmit
