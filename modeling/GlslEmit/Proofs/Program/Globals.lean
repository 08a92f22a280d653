/-
# Global names

The scope of a program and its text are kept in step: a name is taken exactly when the text of its
declaration was accepted.

* `globals_run`: behind every run the scope holds the variables of the accepted declarations, in
  order;
* `globals_of_accepted`: a declaration under one of their names is refused for good, a declaration
  under any other name is refused only if its emission alone is, and an accepted one leaves the
  emitter of its emission.
-/
import GlslEmit.Proofs.Program.Effect

namespace GlslEmit.Program

variable {c : Command} {p : Program} {v : Variable}

/-! ## The scope along a run -/

theorem Command.checkName_of_global (hc : c.global? = some v) :
    c.checkName p = p.scope.checkName v.name := by
  unfold Command.checkName
  rw [hc, (Command.alone_of_global hc).1]

/-- A refused command leaves the scope alone, and an accepted one adds the variable that it
declares, under a name that was not in use. -/
theorem scope_of_step (c : Command) (p : Program) :
    (step c p).state.scope = p.scope ∧ ¬ (step c p).result.isOk = true ∨
      (step c p).state.scope = p.scope ∧ c.global? = none ∨
      ∃ v, c.global? = some v ∧ (step c p).result.isOk = true ∧
        p.scope.checkName v.name = .ok () ∧ (step c p).state.scope = p.scope.extended v := by
  by_cases hok : (step c p).result.isOk = true
  · obtain ⟨hname, -, hstate⟩ := settled_of_isOk hok
    right
    cases hc : c.global? with
    | none =>
      left
      rw [hstate, Command.settle, hc]
      exact ⟨rfl, rfl⟩
    | some v =>
      right
      rw [Command.checkName_of_global hc] at hname
      refine ⟨v, rfl, hok, hname, ?_⟩
      rw [hstate, Command.settle, hc]
  · left
    rw [state_of_refused hok]
    exact ⟨rfl, hok⟩

/-- Behind every run the scope holds the variables of the accepted declarations, in order, and its
index fits them. -/
theorem globals_run (sizes : TableSizes) (commands : List Command) :
    (run commands (new sizes)).scope.Indexed ∧
      (run commands (new sizes)).scope.globals.toList =
        (Action.accepted step commands (new sizes)).filterMap Command.global? := by
  induction commands using List.reverseRecOn with
  | nil => exact ⟨Scope.indexed_empty, rfl⟩
  | append_singleton commands c ih =>
    obtain ⟨hindexed, hglobals⟩ := ih
    have hrun : run (commands ++ [c]) (new sizes) = (step c (run commands (new sizes))).state :=
      Action.runAll_snoc commands c (new sizes)
    have haccepted : Action.accepted step (commands ++ [c]) (new sizes) =
        Action.accepted step commands (new sizes) ++
          (if (step c (run commands (new sizes))).result.isOk then [c] else []) :=
      Action.accepted_snoc commands c (new sizes)
    rw [hrun, haccepted, List.filterMap_append, ← hglobals]
    rcases scope_of_step c (run commands (new sizes)) with
      ⟨hscope, hrefused⟩ | ⟨hscope, hc⟩ | ⟨v, hc, hok, hfree, hscope⟩
    · rw [hscope, if_neg hrefused]
      exact ⟨hindexed, (List.append_nil _).symm⟩
    · rw [hscope]
      refine ⟨hindexed, ?_⟩
      split <;> simp [hc]
    · rw [hscope, if_pos hok, Scope.globals_extended]
      refine ⟨hindexed.extended (hindexed.not_mem_of_free hfree), ?_⟩
      rw [List.filterMap_cons_some hc]
      rfl

/-- A declared name stays declared. -/
theorem mem_names_run {sizes : TableSizes} {commands : List Command} {name : String}
    (hname : name ∈ (run commands (new sizes)).scope.names) (later : List Command) :
    name ∈ (run (commands ++ later) (new sizes)).scope.names := by
  have hglobals := (globals_run sizes commands).2
  have haccepted : Action.accepted step (commands ++ later) (new sizes) = _ :=
    Action.accepted_append commands later (new sizes)
  rw [Scope.names, hglobals] at hname
  rw [Scope.names, (globals_run sizes (commands ++ later)).2, haccepted, List.filterMap_append,
    List.map_append]
  exact List.mem_append_left _ hname

/-! ## Taken and free names -/

/-- **A global name is taken exactly when its declaration was emitted.**  Behind every run, the
scope holds the variables of the accepted declarations, in the order of the commands.  Whatever the
run goes on with, a declaration under one of their names is refused for that name and changes
nothing; and a declaration under any other name has the result of its emission alone, so that it is
refused only by the emitter, and exactly where the emitter refuses it.  Where it is accepted, the
emitter is left as its emission alone leaves it, and its variable joins the scope. -/
theorem globals_of_accepted (sizes : TableSizes) (commands : List Command) :
    let p := run commands (new sizes)
    p.scope.globals.toList =
        (Action.accepted step commands (new sizes)).filterMap Command.global? ∧
      ∀ c v, c.global? = some v →
        (v.name ∈ p.scope.globals.toList.map (·.name) → ∀ later,
          step c (run later p) =
            .refused (run later p) (.registration (.duplicateGlobal v.name))) ∧
        (v.name ∉ p.scope.globals.toList.map (·.name) →
          (step c p).result =
            (Emitter.step c.emission p.emitter).result.mapError .emission) ∧
        ((step c p).result.isOk = true →
          (Emitter.step c.emission p.emitter).result.isOk = true ∧
            (step c p).state.emitter = (Emitter.step c.emission p.emitter).state ∧
            (step c p).state.scope.globals.toList = p.scope.globals.toList ++ [v]) := by
  intro p
  obtain ⟨hindexed, hglobals⟩ := globals_run sizes commands
  refine ⟨hglobals, fun c v hc => ⟨fun hname later => ?_, fun hname => ?_, fun hok => ?_⟩⟩
  · -- the run and what it goes on with are one run
    have hrun : run later p = run (commands ++ later) (new sizes) :=
      (List.foldl_append ..).symm
    rw [hrun]
    apply step_of_taken
    rw [Command.checkName_of_global hc]
    exact (globals_run sizes (commands ++ later)).1.taken (mem_names_run hname later)
  · have hfree : c.checkName p = .ok () := by
      rw [Command.checkName_of_global hc]
      exact hindexed.free hname
    have hreply : c.reply = id := by
      funext r
      rw [Command.reply, (Command.alone_of_global hc).1]
      rfl
    rw [result_of_free hfree, hreply]
    cases (Emitter.step c.emission p.emitter).result <;> rfl
  · obtain ⟨-, hemission, hstate⟩ := settled_of_isOk hok
    rw [hstate, Command.settle, hc]
    exact ⟨hemission, rfl, Scope.globals_extended⟩

/-- A value that no later stage reads leaves its name free, and a second try takes it: the emitter
declares the value in both headers then.  From then on no declaration of that name is accepted, and
one of another name fails by its own fault. -/
theorem globals_of_accepted_second_try :
    let uv : Variable := ⟨"uv", .numeric (.vector .float 2), 1, .varying false⟩
    let color : InterfaceVariable := ⟨"uv", .numeric (.vector .float 4), 1, 0⟩
    let light : InterfaceVariable := ⟨"light", .void, 1, 1⟩
    let first := run [.addVarying uv .fragment .vertex, .addVertexInput light] (new .standard)
    let p := (step (.addVarying uv .vertex .fragment) first).state
    let q := run [.addFragmentOutput color, .beginStage .vertex] p
    first.scope.globals.toList = [] ∧
      (step (.addVarying uv .vertex .fragment) first).result.isOk = true ∧
      p.emitter = (Emitter.step (.declareVarying uv .vertex .fragment) first.emitter).state ∧
      headerText (p.emitter.outputs.get .vertex).header =
        "layout(location = 0) out vec2 _vert_uv;\n\n" ∧
      headerText (p.emitter.outputs.get .fragment).header =
        "layout(location = 0) in vec2 _frag_uv;\n\n" ∧
      p.scope.globals.toList = [uv] ∧
      step (.addFragmentOutput color) q =
        .refused q (.registration (.duplicateGlobal "uv")) ∧
      (step (.addVertexInput light) p).result =
        (Emitter.step (.declareVertexInput light) p.emitter).result.mapError .emission := by
  intro uv color light first p q
  obtain ⟨hnone, hfirst⟩ := globals_of_accepted .standard
    [.addVarying uv .fragment .vertex, .addVertexInput light]
  obtain ⟨hglobals, hp⟩ := globals_of_accepted .standard
    [.addVarying uv .fragment .vertex, .addVertexInput light, .addVarying uv .vertex .fragment]
  have hok : (step (.addVarying uv .vertex .fragment) first).result.isOk = true := by
    unfold first light uv
    rfl
  obtain ⟨-, hemitter, hscope⟩ := (hfirst (.addVarying uv .vertex .fragment) uv rfl).2.2 hok
  have htaken : "uv" ∈ p.scope.globals.toList.map (·.name) := by
    rw [hscope]
    decide
  have hfree : "light" ∉ p.scope.globals.toList.map (·.name) := by
    rw [hscope]
    decide
  have hvertex : headerText (p.emitter.outputs.get .vertex).header =
      "layout(location = 0) out vec2 _vert_uv;\n\n" := by
    rw [hemitter]
    decide
  have hfragment : headerText (p.emitter.outputs.get .fragment).header =
      "layout(location = 0) in vec2 _frag_uv;\n\n" := by
    rw [hemitter]
    decide
  exact ⟨hnone, hok, hemitter, hvertex, hfragment, hscope,
    (hp (.addFragmentOutput color) color.asOutput rfl).1 htaken _,
    (hp (.addVertexInput light) light.asInput rfl).2.1 hfree⟩

end GlslEmit.Program
