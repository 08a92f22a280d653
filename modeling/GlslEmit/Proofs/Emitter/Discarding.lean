/-
# A body that is begun again

Statements write to the body of the active stage.  If that stage is begun once more, the body is
dropped, and nothing else in the emitter remembers the statements: two runs that wrote different
statements in between are in the same state again.

The two emitters are compared in two phases.  While the stage is active they differ in its body, in
the depth and in the unpacked sub-indices; behind its end they differ in its body alone.

* `Emitter.replaced` is an emitter with another activation of a stage, `withBody` one with another
  body;
* `step_through_bodies`: declarations see nothing of either;
* `Emitter.During` and `Emitter.Finished` are the phases;
* `Finished.begin`: beginning the stage again makes the two emitters equal.
-/
import GlslEmit.Proofs.Emitter.Isolation
import GlslEmit.Proofs.Emitter.Commutation

namespace GlslEmit

namespace Emitter

variable {s : Stage} {g g' t : Emitter} {c : Command}

/-! ## Another activation of a stage -/

/-- The emitter with another body of a stage, and with another depth and other unpacked
sub-indices. -/
def replaced (g : Emitter) (s : Stage) (body : Option Body) (depth : Nat) (unpacked : IndexMask) :
    Emitter :=
  { g with
    outputs := g.outputs.modify s fun o => { o with body := body }
    depth := depth
    unpacked := unpacked }

/-- The emitter with another body of a stage. -/
def withBody (g : Emitter) (s : Stage) (body : Option Body) : Emitter :=
  g.replaced s body g.depth g.unpacked

theorem replaced_replaced (g : Emitter) (s : Stage) (body body' : Option Body) (depth depth' : Nat)
    (unpacked unpacked' : IndexMask) :
    (g.replaced s body depth unpacked).replaced s body' depth' unpacked' =
      g.replaced s body' depth' unpacked' := by
  have houtputs : ((g.outputs.modify s fun o => { o with body := body }).modify s fun o =>
      { o with body := body' }) = g.outputs.modify s fun o => { o with body := body' } := by
    apply PerStage.ext_get
    intro t
    simp only [PerStage.get_modify]
    split <;> rfl
  unfold replaced
  dsimp only
  rw [houtputs]

theorem withBody_self (g : Emitter) (s : Stage) : g.withBody s (g.outputs.get s).body = g := by
  have houtputs : (g.outputs.modify s fun o => { o with body := (g.outputs.get s).body }) =
      g.outputs := by
    apply PerStage.ext_get
    intro t
    rw [PerStage.get_modify]
    split
    · next h => rw [h]
    · rfl
  unfold withBody replaced
  rw [houtputs]

theorem replaced_assembled (p h b : Emitter) (s : Stage) (body : Option Body) (depth : Nat)
    (unpacked : IndexMask) :
    (assembled p h b).replaced s body depth unpacked =
      assembled p h (b.replaced s body depth unpacked) := by
  have houtputs : ((assembled p h b).outputs.modify s fun o => { o with body := body }) =
      (assembled p h (b.replaced s body depth unpacked)).outputs := by
    apply PerStage.ext_get
    intro t
    simp only [assembled, replaced, PerStage.get_modify, PerStage.get_tabulate]
    split <;> rfl
  unfold replaced
  rw [houtputs]
  rfl

/-- A declaration sees nothing of a change of the bodies. -/
theorem step_through_bodies {f : Emitter → Emitter}
    (hf : ∀ p h b, f (assembled p h b) = assembled p h (f b)) (hc : c.region ≠ .bodies) :
    (step c).Through f := by
  intro g
  have hself : assembled g g g = g := assembled_self g
  have hother : assembled g g (f g) = f g := by rw [← hf, hself]
  cases hregion : c.region with
  | preamble =>
    have hg : step c (assembled g g g) = _ := step_preamble g g hregion g
    have hfg : step c (assembled g g (f g)) =
        ⟨(step c g).result, assembled (step c g).state g (f g), (step c g).log⟩ :=
      step_preamble g (f g) hregion g
    -- behind the command as well, everything but the preamble is the one of `g`
    rw [hself] at hg
    have hstate : (step c g).state = assembled (step c g).state g g := congrArg Outcome.state hg
    have hchanged : assembled (step c g).state g (f g) = f (step c g).state := by
      rw [← hf, ← hstate]
    rw [hother, hchanged] at hfg
    exact hfg
  | headers =>
    have hg : step c (assembled g g g) = _ := step_headers g g hregion g
    have hfg : step c (assembled g g (f g)) =
        ⟨(step c g).result, assembled g (step c g).state (f g), (step c g).log⟩ :=
      step_headers g (f g) hregion g
    rw [hself] at hg
    have hstate : (step c g).state = assembled g (step c g).state g := congrArg Outcome.state hg
    have hchanged : assembled g (step c g).state (f g) = f (step c g).state := by
      rw [← hf, ← hstate]
    rw [hother, hchanged] at hfg
    exact hfg
  | bodies => exact absurd hregion hc

/-! ## During the activation -/

/-- The stage is active in both emitters, which differ in its activation alone. -/
structure During (s : Stage) (g g' : Emitter) : Prop where
  wellFormed : g.WellFormed
  wellFormed' : g'.WellFormed
  active : g.active = some s
  other : ∃ body depth unpacked, g' = g.replaced s body depth unpacked

theorem During.refl (hg : g.WellFormed) (hs : g.active = some s) : During s g g :=
  ⟨hg, hg, hs, _, _, _, (withBody_self g s).symm⟩

/-- Two emitters that both differ from a third one in the activation differ in it alone. -/
theorem During.join {g₁ g₂ : Emitter} (h₁ : During s g₁ g) (h₂ : During s g₂ g) :
    During s g₁ g₂ := by
  obtain ⟨body₁, depth₁, unpacked₁, hg₁⟩ := h₁.other
  obtain ⟨body₂, depth₂, unpacked₂, hg₂⟩ := h₂.other
  refine ⟨h₁.wellFormed, h₂.wellFormed, h₁.active, (g₂.outputs.get s).body, g₂.depth,
    g₂.unpacked, ?_⟩
  calc g₂ = g₂.withBody s (g₂.outputs.get s).body := (withBody_self g₂ s).symm
    _ = (g₂.replaced s body₂ depth₂ unpacked₂).replaced s (g₂.outputs.get s).body g₂.depth
          g₂.unpacked := (replaced_replaced ..).symm
    _ = (g₁.replaced s body₁ depth₁ unpacked₁).replaced s (g₂.outputs.get s).body g₂.depth
          g₂.unpacked := by rw [← hg₂, hg₁]
    _ = _ := replaced_replaced ..

/-- A declaration does the same in both emitters. -/
theorem During.kept (h : During s g g') (hc : c.region ≠ .bodies) :
    (step c g').result = (step c g).result ∧ During s (step c g).state (step c g').state := by
  obtain ⟨body, depth, unpacked, hg'⟩ := h.other
  have hthrough : (step c).Through fun g => g.replaced s body depth unpacked :=
    step_through_bodies (fun p h b => replaced_assembled p h b s body depth unpacked) hc
  have hstep : step c g' = ⟨(step c g).result,
      (step c g).state.replaced s body depth unpacked, (step c g).log⟩ := by
    rw [hg']
    exact hthrough g
  have hactive : (step c g).state.active = some s :=
    (step_sameStage h.wellFormed hc s).active.trans h.active
  have hstate := congrArg Outcome.state hstep
  exact ⟨by rw [hstep], step_wellFormed h.wellFormed c, step_wellFormed h.wellFormed' c, hactive,
    body, depth, unpacked, hstate⟩

/-- A statement changes the activation alone. -/
theorem Transition.replaced_of_active (h : Transition g c t) (hs : g.active = some s)
    (hc : c.region = .bodies) (hend : c ≠ .endStage) :
    ∃ body depth unpacked, t = g.replaced s body depth unpacked := by
  have hopen {a : Stage} {b : Body} (body : g.openBody? = some (a, b)) : a = s :=
    Option.some.inj ((openBody?_eq_some_iff.mp body).1.symm.trans hs)
  cases h with
  | beginStage idle =>
    rw [idle] at hs
    cases hs
  | endStage body flat => exact absurd rfl hend
  | writeStatement plain form body => exact hopen body ▸ ⟨_, _, _, rfl⟩
  | unpackFirst small fresh body => exact hopen body ▸ ⟨_, _, _, rfl⟩
  | unpackAgain small known body => exact ⟨_, _, _, (withBody_self g s).symm⟩
  | enterBlock body => exact hopen body ▸ ⟨_, _, _, rfl⟩
  | leaveBlock body nested => exact hopen body ▸ ⟨_, _, _, rfl⟩
  | _ => cases hc

/-- A statement in one of the emitters keeps the difference within the activation. -/
theorem During.dropped (h : During s g g') (hc : c.region = .bodies)
    (hend : (step c g).result.isOk = true → c ≠ .endStage) : During s (step c g).state g' := by
  obtain ⟨body, depth, unpacked, hg'⟩ := h.other
  have hstate : (step c g).state.active = some s ∧
      ∃ body depth unpacked, (step c g).state = g.replaced s body depth unpacked :=
    step_state_of (R := fun t => t.active = some s ∧
        ∃ body depth unpacked, t = g.replaced s body depth unpacked) h.wellFormed
      ⟨h.active, _, _, _, (withBody_self g s).symm⟩ fun t hok ht =>
        ⟨ht.active_eq h.active (hend hok), ht.replaced_of_active h.active hc (hend hok)⟩
  obtain ⟨hactive, body₁, depth₁, unpacked₁, hreplaced⟩ := hstate
  refine ⟨step_wellFormed h.wellFormed c, h.wellFormed', hactive, body, depth, unpacked, ?_⟩
  rw [hreplaced, replaced_replaced, hg']

/-! ## Behind the activation -/

/-- The stage is active in neither emitter, and they differ in its body alone. -/
structure Finished (s : Stage) (g g' : Emitter) : Prop where
  wellFormed : g.WellFormed
  wellFormed' : g'.WellFormed
  inactive : g.active ≠ some s
  other : ∃ body, g' = g.withBody s body

/-- The end of the activation leaves its body alone to differ. -/
theorem During.end (h : During s g g') (hended : (step .endStage g).result.isOk = true)
    (hended' : (step .endStage g').result.isOk = true) :
    Finished s (step .endStage g).state (step .endStage g').state := by
  obtain ⟨body, depth, unpacked, hg'⟩ := h.other
  have hstate {g : Emitter} (hg : g.WellFormed) (hs : g.active = some s)
      (hended : (step .endStage g).result.isOk = true) :
      ∃ b, (step .endStage g).state = g.ended s b := by
    have hT := (step_settles .endStage g hg).of_isOk hended
    generalize (step .endStage g).state = t at hT
    cases hT with
    | @endStage a b body flat =>
      obtain rfl : a = s := Option.some.inj ((openBody?_eq_some_iff.mp body).1.symm.trans hs)
      exact ⟨b, rfl⟩
  have hactive' : g'.active = some s := by
    rw [hg']
    exact h.active
  obtain ⟨b, hb⟩ := hstate h.wellFormed h.active hended
  obtain ⟨b', hb'⟩ := hstate h.wellFormed' hactive' hended'
  refine ⟨step_wellFormed h.wellFormed _, step_wellFormed h.wellFormed' _, ?_, some b'.close, ?_⟩
  · rw [hb]
    exact (Option.some_ne_none s).symm
  · rw [hb, hb', hg']
    -- both ends clear the depth and the unpacked sub-indices
    calc (g.replaced s body depth unpacked).ended s b'
        = { (g.replaced s body depth unpacked).replaced s (some b'.close) 0 .empty with
            active := none } := rfl
      _ = { (g.replaced s (some b.close) 0 .empty).replaced s (some b'.close) 0 .empty with
            active := none } := by rw [replaced_replaced, replaced_replaced]
      _ = (g.ended s b).withBody s (some b'.close) := rfl

section OtherStages

variable {a : Stage} {b : Body} (body : Option Body)

theorem openBody?_withBody (hs : g.active ≠ some s) : (g.withBody s body).openBody? = g.openBody? := by
  show (g.active.bind fun a => ((g.withBody s body).outputs.get a).body.map fun b => (a, b)) = _
  unfold openBody?
  cases hactive : g.active with
  | none => rfl
  | some a =>
    have ha : s ≠ a := fun h => hs (h ▸ hactive)
    show (((g.outputs.modify s fun o => { o with body := body }).get a).body.map _) = _
    rw [PerStage.get_modify, if_neg ha]
    rfl

theorem setBody_withBody (ha : a ≠ s) :
    (g.withBody s body).setBody a b = (g.setBody a b).withBody s body := by
  have houtputs := PerStage.modify_comm g.outputs ha (fun o => { o with body := some b })
    fun o => { o with body := body }
  unfold withBody replaced setBody
  dsimp only
  rw [houtputs]

/-- While the stage is inactive, only its beginning sees its body. -/
theorem Transition.withBody (h : Transition g c t) (hs : g.active ≠ some s)
    (hc : c.region = .bodies) (hbegin : c ≠ .beginStage s) :
    Transition (g.withBody s body) c (t.withBody s body) := by
  have hopen := openBody?_withBody body hs
  have hset {a : Stage} {b : Body} (h : g.openBody? = some (a, b)) (b' : Body) :
      (g.withBody s body).setBody a b' = (g.setBody a b').withBody s body := by
    apply setBody_withBody
    rintro rfl
    exact hs (openBody?_eq_some_iff.mp h).1
  cases h with
  | @beginStage a idle =>
    have ha : a ≠ s := fun h => hbegin (congrArg Command.beginStage h)
    have hT : Transition (g.withBody s body) (.beginStage a) _ := .beginStage idle
    rw [opened, setBody_withBody body ha] at hT
    exact hT
  | endStage h flat =>
    have hT := Transition.endStage (hopen.trans h) flat
    rw [ended, hset h] at hT
    exact hT
  | writeStatement plain form h =>
    have hT := Transition.writeStatement plain form (hopen.trans h)
    rw [hset h] at hT
    exact hT
  | unpackFirst small fresh h =>
    have hT : Transition (g.withBody s body) _ _ := .unpackFirst small fresh (hopen.trans h)
    rw [hset h] at hT
    exact hT
  | unpackAgain small known h => exact .unpackAgain small known (hopen.trans h)
  | @enterBlock o a b h =>
    have hT := Transition.enterBlock (o := o) (hopen.trans h)
    rw [hset h] at hT
    exact hT
  | leaveBlock h nested =>
    have hT := Transition.leaveBlock (hopen.trans h) nested
    rw [hset h] at hT
    exact hT
  | _ => cases hc

end OtherStages

/-- What changes the bodies is accepted in both emitters or in neither, unless it begins the
stage. -/
theorem Finished.transition (h : Finished s g g') (hc : c.region = .bodies)
    (hbegin : c ≠ .beginStage s) :
    (∃ t t', Transition g c t ∧ Transition g' c t' ∧ ∃ body, t' = t.withBody s body) ∨
      ¬ (∃ t, Transition g c t) ∧ ¬ ∃ t', Transition g' c t' := by
  obtain ⟨body, rfl⟩ := h.other
  by_cases haccepted : ∃ t, Transition g c t
  · obtain ⟨t, ht⟩ := haccepted
    exact Or.inl ⟨t, _, ht, ht.withBody body h.inactive hc hbegin, body, rfl⟩
  · refine Or.inr ⟨haccepted, ?_⟩
    rintro ⟨t', ht'⟩
    -- with the old body back in place it is accepted by the first emitter as well
    have ht := ht'.withBody (g.outputs.get s).body h.inactive hc hbegin
    have hg : (g.withBody s body).withBody s (g.outputs.get s).body = g :=
      (replaced_replaced ..).trans (withBody_self g s)
    rw [hg] at ht
    exact haccepted ⟨_, ht⟩

/-- Whatever is no beginning of the stage does the same in both emitters. -/
theorem Finished.kept_of_ne (h : Finished s g g') (hbegin : c ≠ .beginStage s) :
    (step c g').result.isOk = (step c g).result.isOk ∧
      Finished s (step c g).state (step c g').state := by
  have hinactive : (step c g).state.active ≠ some s :=
    step_state_of (R := fun t => t.active ≠ some s) h.wellFormed h.inactive fun t _ ht =>
      (ht.body_of_inactive h.inactive hbegin).2
  suffices hstep : (step c g').result.isOk = (step c g).result.isOk ∧
      ∃ body, (step c g').state = (step c g).state.withBody s body from
    ⟨hstep.1, step_wellFormed h.wellFormed c, step_wellFormed h.wellFormed' c, hinactive, hstep.2⟩
  obtain ⟨body, hg'⟩ := h.other
  by_cases hc : c.region = .bodies
  · rcases h.transition hc hbegin with ⟨t, t', ht, ht', hbody⟩ | ⟨hrefused, hrefused'⟩
    · obtain ⟨a, log, ha⟩ := ht.step_accepted
      obtain ⟨a', log', ha'⟩ := ht'.step_accepted
      rw [ha, ha']
      exact ⟨rfl, hbody⟩
    · rcases step_settles c g h.wellFormed with ⟨e, he⟩ | ⟨t, a, log, ha, ht⟩
      · rcases step_settles c g' h.wellFormed' with ⟨e', he'⟩ | ⟨t', a', log', ha', ht'⟩
        · rw [he, he']
          exact ⟨rfl, body, hg'⟩
        · exact absurd ⟨t', ht'⟩ hrefused'
      · exact absurd ⟨t, ht⟩ hrefused
  · have hthrough : (step c).Through fun g => g.withBody s body :=
      step_through_bodies (fun p h b => replaced_assembled p h b s body b.depth b.unpacked) hc
    have hstep : step c g' =
        ⟨(step c g).result, (step c g).state.withBody s body, (step c g).log⟩ := by
      rw [hg']
      exact hthrough g
    rw [hstep]
    exact ⟨rfl, body, rfl⟩

/-- Beginning the stage again drops the body, and with it the only difference. -/
theorem Finished.begin (h : Finished s g g') :
    (step (.beginStage s) g').result.isOk = (step (.beginStage s) g).result.isOk ∧
      ((step (.beginStage s) g).result.isOk = true →
        (step (.beginStage s) g').state = (step (.beginStage s) g).state) := by
  obtain ⟨body, hg'⟩ := h.other
  have hactive : g'.active = g.active := by
    rw [hg']
    rfl
  have hstep {g : Emitter} (hidle : g.active = none) :
      ∃ log, step (.beginStage s) g = .accepted (g.opened s) .done log :=
    ⟨_, Action.bind_accepted (beginStage_accepted hidle) rfl⟩
  cases hidle : g.active with
  | none =>
    obtain ⟨log, hg⟩ := hstep hidle
    obtain ⟨log', hopened⟩ := hstep (hactive.trans hidle)
    rw [hg, hopened]
    refine ⟨rfl, fun _ => ?_⟩
    calc g'.opened s = (g.withBody s body).opened s := by rw [hg']
      _ = { (g.withBody s body).replaced s (some .fresh) 1 .empty with active := some s } := rfl
      _ = { g.replaced s (some .fresh) 1 .empty with active := some s } := by
          rw [withBody, replaced_replaced]
      _ = g.opened s := rfl
  | some a =>
    have hrefused {g : Emitter} (ha : g.active = some a) :
        step (.beginStage s) g = .refused g (.sequence (.stageAlreadyActive a s)) := by
      apply Action.bind_refused
      rw [beginStage, ha]
    rw [hrefused hidle, hrefused (hactive.trans hidle)]
    exact ⟨rfl, fun hok => by cases hok⟩

/-- A beginning that is refused is refused in both emitters. -/
theorem Finished.kept (h : Finished s g g')
    (hbegin : (step c g).result.isOk = true → c ≠ .beginStage s) :
    (step c g').result.isOk = (step c g).result.isOk ∧
      Finished s (step c g).state (step c g').state := by
  by_cases hc : c = .beginStage s
  · subst hc
    have hsame := h.begin.1
    have hrefused : ¬ (step (.beginStage s) g).result.isOk = true := fun hok => hbegin hok rfl
    have hstate {g : Emitter} (hg : g.WellFormed)
        (hrefused : ¬ (step (.beginStage s) g).result.isOk = true) :
        (step (.beginStage s) g).state = g := by
      rcases step_settles (.beginStage s) g hg with ⟨e, he⟩ | ⟨t, a, log, ha, -⟩
      · rw [he]
        rfl
      · exact absurd (by rw [ha]; rfl) hrefused
    refine ⟨hsame, ?_⟩
    rw [hstate h.wellFormed hrefused, hstate h.wellFormed' (hsame ▸ hrefused)]
    exact h
  · exact h.kept_of_ne hc

end Emitter

end GlslEmit
