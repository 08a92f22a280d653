/-
# Independent commands commute

Every command reads and writes one region of a program text.  So two commands to different regions
can change places: in either order each of them gives its own answer, and the state behind both is
the same, whether they are accepted or refused.  Two interface declarations can change places
unless both write to the header of one stage, or both take a location.

* `Action.Through`: an action does the same behind a map of the states, with rules that follow how
  actions are built;
* `Emitter.assembled` puts an emitter together from the regions of three others;
* `step_preamble`, `step_headers` and `step_bodies`: a command sees and changes its own region alone;
* `Emitter.independent_commute`: independent commands commute.
-/
import GlslEmit.Proofs.Emitter.Rendering

namespace GlslEmit

/-! ## Actions that commute -/

namespace Action

variable {σ ε α β : Type} {f : σ → σ}

/-- In either order each of two actions has its own result and its own log, and one state is left
behind both. -/
def Commute (x : Action σ ε α) (y : Action σ ε β) (s : σ) : Prop :=
  ∃ t, x (y s).state = ⟨(x s).result, t, (x s).log⟩ ∧ y (x s).state = ⟨(y s).result, t, (y s).log⟩

theorem Commute.symm {x : Action σ ε α} {y : Action σ ε β} {s : σ} (h : x.Commute y s) :
    y.Commute x s :=
  h.imp fun _ ht => ⟨ht.2, ht.1⟩

/-- The action does the same behind a map of the states: it sees nothing of what the map changes. -/
def Through (x : Action σ ε α) (f : σ → σ) : Prop :=
  ∀ s, x (f s) = ⟨(x s).result, f (x s).state, (x s).log⟩

theorem Through.check {test : σ → Except ε α} (h : ∀ s, test (f s) = test s) :
    (Action.check test).Through f := by
  intro s
  show (⟨test (f s), f s, []⟩ : Outcome σ ε α) = ⟨test s, f s, []⟩
  rw [h]

theorem Through.modify {change : σ → σ} (h : ∀ s, change (f s) = f (change s)) :
    (Action.modify change : Action σ ε Unit).Through f := by
  intro s
  show Outcome.accepted (change (f s)) () [] = Outcome.accepted (f (change s)) () []
  rw [h]

theorem Through.bind {x : Action σ ε α} {y : α → Action σ ε β} (hx : x.Through f)
    (hy : ∀ a, (y a).Through f) : (x >>= y).Through f := by
  intro s
  have hfirst := hx s
  cases hresult : (x s).result with
  | error e =>
    have hs : x s = ⟨.error e, (x s).state, (x s).log⟩ := by rw [← hresult]
    rw [hresult] at hfirst
    rw [bind_of_error hfirst, bind_of_error hs]
  | ok a =>
    have hs : x s = ⟨.ok a, (x s).state, (x s).log⟩ := by rw [← hresult]
    rw [hresult] at hfirst
    rw [bind_of_ok hfirst, bind_of_ok hs, hy]

/-- Only the answer changes. -/
theorem Through.answer {x : Action σ ε α} (hx : x.Through f) (k : α → β) :
    (x >>= fun a => pure (k a)).Through f :=
  hx.bind fun _ _ => rfl

/-- Two actions commute if the state consists of two parts and each action sees one of them. -/
theorem commute_of_through {x : Action σ ε α} {y : Action σ ε β} {s : σ} (parts : σ → σ → σ)
    (hs : parts s s = s) (hx : ∀ u, x.Through fun t => parts t u)
    (hy : ∀ t, y.Through fun u => parts t u) : x.Commute y s := by
  -- behind one action the other part is still the one of `s`
  have hxs : (x s).state = parts (x s).state s := by
    have h : x (parts s s) = _ := hx s s
    rw [hs] at h
    exact congrArg Outcome.state h
  have hys : (y s).state = parts s (y s).state := by
    have h : y (parts s s) = _ := hy s s
    rw [hs] at h
    exact congrArg Outcome.state h
  refine ⟨parts (x s).state (y s).state, ?_, ?_⟩
  · calc x (y s).state = x (parts s (y s).state) := congrArg x hys
      _ = _ := hx (y s).state s
  · calc y (x s).state = y (parts (x s).state s) := congrArg y hxs
      _ = _ := hy (x s).state s

/-- An action that is refused everywhere commutes with every other one. -/
theorem commute_of_refused {x : Action σ ε α} {e : ε} (hx : ∀ s, x s = .refused s e)
    (y : Action σ ε β) (s : σ) : x.Commute y s := by
  refine ⟨(y s).state, ?_, ?_⟩
  · rw [hx, hx]
    rfl
  · rw [hx]
    rfl

end Action

namespace Emitter

/-! ## Emitters put together from regions -/

/-- The emitter with the preamble of the first, the headers of the second and the bodies of the
third. -/
def assembled (p h b : Emitter) : Emitter where
  sizes := p.sizes
  declarations := p.declarations
  outputs := .tabulate fun s => ⟨(h.outputs.get s).header, (b.outputs.get s).body⟩
  active := b.active
  depth := b.depth
  unpacked := b.unpacked
  nextBlock := p.nextBlock
  nextLocation := h.nextLocation
  tables := p.tables
  uniformDeclared := p.uniformDeclared

variable (p h b g : Emitter)

theorem assembled_self : assembled g g g = g := by
  have houtputs : PerStage.tabulate (fun s =>
      (⟨(g.outputs.get s).header, (g.outputs.get s).body⟩ : StageOutput)) = g.outputs := by
    apply PerStage.ext_get
    intro s
    rw [PerStage.get_tabulate]
  unfold assembled
  rw [houtputs]

theorem assembled_declareIn (s : Stage) (d : InterfaceDeclaration) :
    (assembled p h b).declareIn s d = assembled p (h.declareIn s d) b := by
  have houtputs : (assembled p h b).outputs.modify s (fun o => { o with header := o.header ++ [d] }) =
      (assembled p (h.declareIn s d) b).outputs := by
    apply PerStage.ext_get
    intro t
    simp only [assembled, declareIn, PerStage.get_modify, PerStage.get_tabulate]
    by_cases hst : s = t
    · rw [if_pos hst, if_pos hst]
    · rw [if_neg hst, if_neg hst]
  unfold declareIn
  rw [houtputs]
  rfl

theorem assembled_setBody (s : Stage) (body : Body) :
    (assembled p h b).setBody s body = assembled p h (b.setBody s body) := by
  have houtputs : (assembled p h b).outputs.modify s (fun o => { o with body := some body }) =
      (assembled p h (b.setBody s body)).outputs := by
    apply PerStage.ext_get
    intro t
    simp only [assembled, setBody, PerStage.get_modify, PerStage.get_tabulate]
    by_cases hst : s = t
    · rw [if_pos hst, if_pos hst]
    · rw [if_neg hst, if_neg hst]
  unfold setBody
  rw [houtputs]
  rfl

theorem openBody?_assembled : (assembled p h b).openBody? = b.openBody? := by
  simp only [openBody?, assembled, PerStage.get_tabulate]

theorem isActivated_assembled (s : Stage) :
    (assembled p h b).isActivated s = b.isActivated s := by
  simp only [isActivated, assembled, PerStage.get_tabulate]

/-! ## Commands to the preamble -/

/-- A command to the preamble sees and changes the preamble alone. -/
theorem step_preamble {c : Command} (hc : c.region = .preamble) :
    (step c).Through fun p => assembled p h b := by
  cases c with
  | declareStruct v =>
    refine Action.Through.answer (fun p => ?_) _
    unfold declareStruct
    split <;> rfl
  | declareUniform v =>
    refine Action.Through.answer (fun p => ?_) _
    show (if p.uniformDeclared = true then _ else _) = _
    unfold declareUniform
    by_cases hfirst : p.uniformDeclared = true
    · simp only [if_pos hfirst]
      rfl
    · simp only [if_neg hfirst]
      split <;> rfl
  | declareBinding v =>
    refine Action.Through.answer (fun p => ?_) _
    have hform : bindingForm (assembled p h b).sizes (assembled p h b).nextBlock v =
        bindingForm p.sizes p.nextBlock v := rfl
    unfold declareBinding
    rw [hform]
    cases bindingForm p.sizes p.nextBlock v with
    | error e => rfl
    | ok form =>
      cases form with
      | block block => rfl
      | table t =>
        show (if p.tables.contains t.name = true then _ else _) = _
        by_cases hknown : p.tables.contains t.name = true
        · simp only [if_pos hknown]
          rfl
        · simp only [if_neg hknown]
          rfl
  | declareIndices max =>
    refine Action.Through.answer (fun p => ?_) _
    unfold declareIndices
    split <;> rfl
  | _ => cases hc

/-! ## Interface declarations -/

/-- What an interface declaration other than that of a passed value does: it is refused everywhere,
or it writes the same line to the same header everywhere. -/
theorem header_effect {c : Command} (hc : c.region = .headers) (hvarying : c.isVarying = false) :
    (∃ e, ∀ g, step c g = .refused g e) ∨
      ∃ s d, ∀ g, step c g = .accepted (g.declareIn s d) .done [] := by
  cases c with
  | declareVertexInput v =>
    cases hform : locatedValue "vertex input" .input v with
    | error e =>
      refine Or.inl ⟨e, fun g => Action.bind_refused ?_ _⟩
      rw [declareVertexInput, hform]
    | ok value =>
      exact Or.inr ⟨.vertex, .located value, fun g =>
        Action.bind_accepted (declareVertexInput_accepted hform) rfl⟩
  | declareFragmentOutput v =>
    cases hform : locatedValue "fragment output" .output v with
    | error e =>
      refine Or.inl ⟨e, fun g => Action.bind_refused ?_ _⟩
      rw [declareFragmentOutput, hform]
    | ok value =>
      exact Or.inr ⟨.fragment, .located value, fun g =>
        Action.bind_accepted (declareFragmentOutput_accepted hform) rfl⟩
  | declareAttachment v =>
    cases hform : v.component.attachmentToken? with
    | none =>
      refine Or.inl ⟨.unmappableType ("subpass input '" ++ v.name ++ "'") v.component.name,
        fun g => Action.bind_refused ?_ _⟩
      rw [declareAttachment, hform]
    | some token =>
      exact Or.inr ⟨.fragment, .attachment v.index token v.name, fun g =>
        Action.bind_accepted (declareAttachment_accepted hform) rfl⟩
  | declareVarying v producer consumer => cases hvarying
  | _ => cases hc

/-- What the declaration of a passed value does: it is refused everywhere, or it takes the next
location everywhere. -/
theorem varying_effect (v : Variable) (producer consumer : Stage) :
    (∃ e, ∀ g, step (.declareVarying v producer consumer) g = .refused g e) ∨
      ∃ token, ∀ g, step (.declareVarying v producer consumer) g =
        .accepted (g.withVarying v producer consumer token) (.number g.nextLocation) [] := by
  by_cases horder : producer < consumer
  · cases hform : varyingToken? v with
    | none =>
      refine Or.inl ⟨.unmappableType ("local '" ++ v.name ++ "'")
        (v.type.describe ++ arraySuffix v.arraySize), fun g => Action.bind_refused ?_ _⟩
      rw [declareVarying, if_pos horder, hform]
    | some token =>
      exact Or.inr ⟨token, fun g =>
        Action.bind_accepted (declareVarying_accepted horder hform) rfl⟩
  · refine Or.inl ⟨.sequence (.invalidStagePair producer consumer),
      fun g => Action.bind_refused ?_ _⟩
    rw [declareVarying, if_neg horder]

theorem assembled_withVarying (v : Variable) (producer consumer : Stage) (token : String) :
    (assembled p h b).withVarying v producer consumer token =
      assembled p (h.withVarying v producer consumer token) b := by
  have hlocation : (assembled p h b).nextLocation = h.nextLocation := rfl
  unfold withVarying
  dsimp only
  rw [assembled_declareIn, assembled_declareIn, hlocation]
  rfl

/-- An interface declaration sees and changes the headers alone. -/
theorem step_headers {c : Command} (hc : c.region = .headers) :
    (step c).Through fun h => assembled p h b := by
  intro h
  cases hvarying : c.isVarying with
  | false =>
    rcases header_effect hc hvarying with ⟨e, heffect⟩ | ⟨s, d, heffect⟩
    · rw [heffect, heffect]
      rfl
    · rw [heffect, heffect, assembled_declareIn]
      rfl
  | true =>
    cases c with
    | declareVarying v producer consumer =>
      rcases varying_effect v producer consumer with ⟨e, heffect⟩ | ⟨token, heffect⟩
      · rw [heffect, heffect]
        rfl
      · rw [heffect, heffect, assembled_withVarying]
        rfl
    | _ => cases hvarying

/-! ## Stage changes and statements -/

theorem requireActive_through (operation : String) :
    (requireActive operation).Through fun b => assembled p h b :=
  Action.Through.check fun _ => rfl

theorem writeLine_through (operation : String) (line : Line) :
    (writeLine operation line).Through fun b => assembled p h b := by
  intro b
  unfold writeLine
  rw [openBody?_assembled]
  cases b.openBody? with
  | none => rfl
  | some sb =>
    dsimp only
    rw [assembled_setBody]
    rfl

theorem writeStatement_through (statement : Statement) :
    (writeStatement statement).Through fun b => assembled p h b :=
  .bind (requireActive_through p h _) fun _ =>
    .bind (.check fun _ => rfl) fun _ => writeLine_through p h _ _

theorem perform_through (statement : Statement) :
    (perform statement).Through fun b => assembled p h b := by
  cases statement with
  | declare v => exact writeStatement_through p h _
  | assign left operator right => exact writeStatement_through p h _
  | store template value => exact writeStatement_through p h _
  | unpack index =>
    refine .bind (requireActive_through p h _) fun _ => .bind (.check fun _ => rfl) fun line b => ?_
    show (if b.unpacked.contains index = true then _ else _) = _
    by_cases hknown : b.unpacked.contains index = true
    · simp only [if_pos hknown]
      rfl
    · simp only [if_neg hknown]
      have hremember : (Action.modify fun g : Emitter =>
          { g with unpacked := (g.unpacked.insert index).2 } : Action Emitter EmitError Unit).Through
          fun b => assembled p h b := .modify fun _ => rfl
      exact Action.Through.bind (writeLine_through p h _ line) (fun _ => hremember) b
  | openBlock o =>
    exact .bind (writeLine_through p h _ _) fun _ => .modify fun _ => rfl
  | closeBlock =>
    exact .bind (requireActive_through p h _) fun _ => .bind (.check fun _ => rfl) fun _ =>
      .bind (.modify fun _ => rfl) fun _ => writeLine_through p h _ _

theorem beginStage_through (s : Stage) :
    (beginStage s).Through fun b => assembled p h b := by
  intro b
  have hopened : (assembled p h b).opened s = assembled p h (b.opened s) := by
    unfold opened
    rw [assembled_setBody]
    rfl
  have hactive : (assembled p h b).active = b.active := rfl
  unfold beginStage
  rw [hactive, hopened, isActivated_assembled]
  cases b.active <;> rfl

theorem endStage_through : endStage.Through fun b => assembled p h b := by
  refine .bind (.check fun _ => rfl) fun _ => .bind (.check fun _ => rfl) fun _ b => ?_
  rw [openBody?_assembled]
  cases b.openBody? with
  | none => rfl
  | some sb =>
    have hended : (assembled p h b).ended sb.1 sb.2 = assembled p h (b.ended sb.1 sb.2) := by
      unfold ended
      rw [assembled_setBody]
      rfl
    dsimp only
    rw [hended]
    rfl

/-- A stage change or a statement sees and changes the bodies alone. -/
theorem step_bodies {c : Command} (hc : c.region = .bodies) :
    (step c).Through fun b => assembled p h b := by
  cases c with
  | beginStage s => exact (beginStage_through p h s).answer _
  | endStage => exact (endStage_through p h).answer _
  | perform statement => exact (perform_through p h statement).answer _
  | _ => cases hc

/-! ## Two interface declarations -/

variable {g} {c d : Command}

theorem declareIn_comm {s t : Stage} (hst : s ≠ t) (d e : InterfaceDeclaration) :
    (g.declareIn s d).declareIn t e = (g.declareIn t e).declareIn s d := by
  unfold declareIn
  dsimp only
  rw [PerStage.modify_comm _ hst]

theorem withVarying_declareIn {v : Variable} {producer consumer s : Stage} {token : String}
    (hproducer : s ≠ producer) (hconsumer : s ≠ consumer) (d : InterfaceDeclaration) :
    (g.declareIn s d).withVarying v producer consumer token =
      (g.withVarying v producer consumer token).declareIn s d := by
  have hlocation : (g.declareIn s d).nextLocation = g.nextLocation := rfl
  unfold withVarying
  dsimp only
  rw [hlocation, declareIn_comm hproducer, declareIn_comm hconsumer]
  rfl

/-- A command writes to the header of a stage. -/
def WritesHeader (g : Emitter) (c : Command) (s : Stage) : Prop :=
  ((step c g).state.outputs.get s).header ≠ (g.outputs.get s).header

theorem writesHeader_declareIn {s : Stage} {e : InterfaceDeclaration}
    (heffect : step c g = .accepted (g.declareIn s e) .done []) : g.WritesHeader c s := by
  unfold WritesHeader
  rw [heffect]
  show ((g.declareIn s e).outputs.get s).header ≠ _
  rw [header_declareIn, if_pos rfl]
  simp

theorem writesHeader_withVarying {v : Variable} {producer consumer s : Stage} {token : String}
    {answer : Reply}
    (heffect : step c g = .accepted (g.withVarying v producer consumer token) answer [])
    (hs : s = producer ∨ s = consumer) : g.WritesHeader c s := by
  unfold WritesHeader
  rw [heffect]
  show ((g.withVarying v producer consumer token).outputs.get s).header ≠ _
  rw [header_withVarying]
  rcases hs with rfl | rfl <;> simp

/-- A declaration that passes no value commutes with every other one that writes elsewhere. -/
theorem headers_commute_of_fixed (hc : c.region = .headers) (hd : d.region = .headers)
    (hfixed : c.isVarying = false)
    (hdisjoint : ∀ s, ¬ (g.WritesHeader c s ∧ g.WritesHeader d s)) :
    (step c).Commute (step d) g := by
  rcases header_effect hc hfixed with ⟨e, hrefused⟩ | ⟨s, x, hwrites⟩
  · exact Action.commute_of_refused hrefused _ g
  have hs := writesHeader_declareIn (hwrites g)
  cases hvarying : d.isVarying with
  | false =>
    rcases header_effect hd hvarying with ⟨e, hrefused⟩ | ⟨t, y, hwrites'⟩
    · exact (Action.commute_of_refused hrefused _ g).symm
    · have hst : s ≠ t := by
        rintro rfl
        exact hdisjoint s ⟨hs, writesHeader_declareIn (hwrites' g)⟩
      refine ⟨(g.declareIn s x).declareIn t y, ?_, ?_⟩
      · rw [hwrites' g, hwrites g, declareIn_comm hst]
        apply hwrites
      · rw [hwrites g, hwrites' g]
        apply hwrites'
  | true =>
    cases d with
    | declareVarying v producer consumer =>
      rcases varying_effect v producer consumer with ⟨e, hrefused⟩ | ⟨token, hwrites'⟩
      · exact (Action.commute_of_refused hrefused _ g).symm
      · have hst {t : Stage} (ht : t = producer ∨ t = consumer) : s ≠ t := by
          rintro rfl
          exact hdisjoint s ⟨hs, writesHeader_withVarying (hwrites' g) ht⟩
        have hcomm : (g.declareIn s x).withVarying v producer consumer token =
            (g.withVarying v producer consumer token).declareIn s x :=
          withVarying_declareIn (hst (Or.inl rfl)) (hst (Or.inr rfl)) x
        refine ⟨(g.withVarying v producer consumer token).declareIn s x, ?_, ?_⟩
        · rw [hwrites' g, hwrites g]
          apply hwrites
        · rw [hwrites g, ← hcomm, hwrites' g]
          apply hwrites'
    | _ => cases hvarying

/-- **Independent commands commute.**  Two commands to different regions can change places in every
state, and so can two interface declarations that write to different headers and do not both take
a location: in either order each command gives its own answer or error, and the state behind both
is the same. -/
theorem independent_commute (g : Emitter) (c d : Command) :
    (c.region ≠ d.region → (step c).Commute (step d) g) ∧
      (c.region = .headers → d.region = .headers → ¬ (c.isVarying = true ∧ d.isVarying = true) →
        (∀ s, ¬ (g.WritesHeader c s ∧ g.WritesHeader d s)) → (step c).Commute (step d) g) := by
  -- the two regions in the order of the text; the state is put together from both and a third
  have hpreamble_headers {c d : Command} (hc : c.region = .preamble) (hd : d.region = .headers) :
      (step c).Commute (step d) g :=
    Action.commute_of_through (fun t u => assembled t u g) (assembled_self g)
      (fun u => step_preamble u g hc) (fun t => step_headers t g hd)
  have hpreamble_bodies {c d : Command} (hc : c.region = .preamble) (hd : d.region = .bodies) :
      (step c).Commute (step d) g :=
    Action.commute_of_through (fun t u => assembled t g u) (assembled_self g)
      (fun u => step_preamble g u hc) (fun t => step_bodies t g hd)
  have hheaders_bodies {c d : Command} (hc : c.region = .headers) (hd : d.region = .bodies) :
      (step c).Commute (step d) g :=
    Action.commute_of_through (fun t u => assembled g t u) (assembled_self g)
      (fun u => step_headers g u hc) (fun t => step_bodies g t hd)
  constructor
  · intro hregions
    cases hc : c.region <;> cases hd : d.region
    case preamble.headers => exact hpreamble_headers hc hd
    case headers.preamble => exact (hpreamble_headers hd hc).symm
    case preamble.bodies => exact hpreamble_bodies hc hd
    case bodies.preamble => exact (hpreamble_bodies hd hc).symm
    case headers.bodies => exact hheaders_bodies hc hd
    case bodies.headers => exact (hheaders_bodies hd hc).symm
    -- the same region twice
    all_goals exact absurd (hc.trans hd.symm) hregions
  · intro hc hd hlocations hdisjoint
    cases hvarying : c.isVarying with
    | false => exact headers_commute_of_fixed hc hd hvarying hdisjoint
    | true =>
      have hfixed : d.isVarying = false := by
        cases hd' : d.isVarying with
        | false => rfl
        | true => exact absurd ⟨hvarying, hd'⟩ hlocations
      have hswapped : ∀ s, ¬ (g.WritesHeader d s ∧ g.WritesHeader c s) := by
        intro s hs
        exact hdisjoint s hs.symm
      exact (headers_commute_of_fixed hd hc hfixed hswapped).symm

/-- A struct and the beginning of a stage, the end that is refused and a fragment output, and a
vertex input beside a value that is passed on behind the vertex stage. -/
theorem independent_commute_three_pairs :
    let light : StructType := ⟨"Light", [⟨"intensity", .numeric (.scalar .float), 1⟩]⟩
    let position : InterfaceVariable := ⟨"position", .numeric (.vector .float 3), 1, 0⟩
    let color : InterfaceVariable := ⟨"color", .numeric (.vector .float 4), 1, 0⟩
    let uv : Variable := ⟨"uv", .numeric (.vector .float 2), 1, .varying false⟩
    let g := run [.beginStage .fragment, .perform (.unpack 3), .endStage] (new .standard)
    (step (.declareStruct light)).Commute (step (.beginStage .vertex)) g ∧
      (step .endStage).Commute (step (.declareFragmentOutput color)) g ∧
      (step (.declareVertexInput position)).Commute
        (step (.declareVarying uv .geometry .fragment)) g := by
  intro light position color uv g
  have hvertex : ∀ s, g.WritesHeader (.declareVertexInput position) s → s = .vertex := by
    intro s hs
    cases s with
    | vertex => rfl
    | _ => exact absurd rfl hs
  have hother : ¬ g.WritesHeader (.declareVarying uv .geometry .fragment) .vertex := by
    intro h
    exact h rfl
  refine ⟨(independent_commute g _ _).1 (by decide), (independent_commute g _ _).1 (by decide),
    (independent_commute g _ _).2 rfl rfl (by decide) fun s hs => ?_⟩
  obtain rfl := hvertex s hs.1
  exact hother hs.2

end Emitter

end GlslEmit
