/-
# The texts that a program is built from

A program keeps an emitter up to date, call by call, and its texts are put together at the end.
The result is the reference rendering of the accepted calls: for each stage that was begun the
version lines, the shared declarations in call order, the push-constant block for the largest
sub-index that was used, the header of the stage, and the lines of its last activation.

* `Program.renderedSource` is the reference rendering of one stage;
* `Program.build_renders`: a built program holds exactly the rendered sources, in pipeline order.
-/
import GlslEmit.Proofs.Program.Transition
import GlslEmit.Proofs.Emitter.Rendering

namespace GlslEmit

namespace Program

open Emitter (hasBegun_iff)

/-! ## The reference rendering -/

/-- The push-constant block for the largest sub-index that the calls used, if they used any. -/
def pushConstantsFor (calls : List Command) : List Declaration :=
  match (calls.filterMap Command.usedIndex?).max? with
  | none => []
  | some max => [.pushConstants (subIndexFields max)]

/-- The source of a stage, rendered from the accepted calls. -/
def renderedSource (sizes : TableSizes) (calls : List Command) (s : Stage) : String :=
  let history := calls.map Command.emission
  let declarations := contributions (Emitter.declarationsAfter sizes) history
  let interface := contributions (Emitter.interfaceAfter s) history
  let lines := contributions Statement.linesAfter (Emitter.lastActivation s history)
  versionText ++ joinTexts (declarations.map Declaration.text) ++
    joinTexts ((pushConstantsFor calls).map Declaration.text) ++
    joinTexts (interface.map InterfaceDeclaration.text) ++
    (entryOpen ++ joinTexts (lines.map IndentedLine.text) ++ entryClose)

/-! ## The largest used sub-index -/

theorem max?_snoc (xs : List UInt32) (x : UInt32) :
    (xs ++ [x]).max? = largerIndex xs.max? (some x) := by
  cases xs with
  | nil => rfl
  | cons y ys =>
    rw [List.cons_append, List.max?_cons', List.max?_cons', List.foldl_append]
    rfl

/-- A program remembers the largest sub-index that was used. -/
theorem highestIndex_of_chain {p q : Program} {calls : List Command}
    (h : Chain Transition p calls q) (hp : p.highestIndex = none) :
    q.highestIndex = (calls.filterMap Command.usedIndex?).max? := by
  induction h with
  | refl => exact hp
  | @snoc calls c t u _ hT ih =>
    rw [hT.highestIndex, ih, List.filterMap_append]
    cases hc : c.usedIndex? with
    | none => simp [hc, largerIndex]
    | some index => simp [hc, max?_snoc]

/-! ## Finishing a program -/

/-- A program is built from its finished emitter, and only if no stage is active. -/
theorem sources_of_build {p : Program} {texts : Sources} (h : (build p).result = .ok texts) :
    p.emitter.active = none ∧ texts.stages = p.finished.sources := by
  obtain ⟨_, htest, h⟩ := Action.ok_of_bind h
  obtain ⟨_, hindices, h⟩ := Action.ok_of_bind h
  have hemitter := (declareUsedIndices_settles p).of_ok hindices
  constructor
  · cases hactive : p.emitter.active with
    | none => rfl
    | some s =>
      rw [Action.check, hactive] at htest
      cases htest
  · have htexts : texts = ⟨(declareUsedIndices p).state.emitter.sources⟩ :=
      (Except.ok.inj h).symm
    rw [htexts, hemitter]

/-- The stages that have a source stand in pipeline order. -/
theorem sources_ordered (g : Emitter) : (g.sources.map (·.1)).Pairwise (· < ·) := by
  have hall : Stage.all.Pairwise (· < ·) := by decide
  have hkeys : g.sources.map (·.1) = Stage.all.filter fun s => (g.source? s).isSome := by
    rw [Emitter.sources, List.map_filterMap, ← List.filterMap_eq_filter]
    congr 1
    funext s
    cases hsource : g.source? s <;> simp [Option.guard, hsource]
  rw [hkeys]
  exact hall.filter _

theorem mem_sources_iff {g : Emitter} {s : Stage} {text : String} :
    (s, text) ∈ g.sources ↔ g.source? s = some text := by
  rw [Emitter.sources, List.mem_filterMap]
  constructor
  · rintro ⟨t, -, ht⟩
    obtain ⟨text', htext, heq⟩ := Option.map_eq_some_iff.mp ht
    cases heq
    exact htext
  · intro htext
    exact ⟨s, Stage.mem_all s, by rw [htext]; rfl⟩

/-- The push-constant block joins the preamble at its end. -/
theorem finished_eq (p : Program) (calls : List Command)
    (h : p.highestIndex = (calls.filterMap Command.usedIndex?).max?) :
    p.finished =
      { p.emitter with
        declarations := p.emitter.declarations ++ pushConstantsFor calls } := by
  rw [finished, pushConstantsFor, ← h]
  cases p.highestIndex with
  | none => simp
  | some max => rfl

/-- An inactive program that reflects its calls finishes with the rendered source of every stage
that was begun, and with no other. -/
theorem finished_source? {sizes : TableSizes} {p : Program} {calls : List Command}
    (h : Emitter.Reflects sizes (calls.map Command.emission) p.emitter)
    (hindex : p.highestIndex = (calls.filterMap Command.usedIndex?).max?)
    (hidle : p.emitter.active = none) (s : Stage) :
    p.finished.source? s =
      if Emitter.hasBegun s (calls.map Command.emission) then some (renderedSource sizes calls s)
      else none := by
  have hbody := h.bodies.body s
  rw [finished_eq p calls hindex, Emitter.source?, hidle]
  simp only [reduceCtorEq, if_false]
  rw [hbody, h.headers.header s]
  cases hbegun : Emitter.hasBegun s (calls.map Command.emission) with
  | false => simp
  | true =>
    -- no stage is active, so the last activation of this one is over
    have hended : Emitter.hasEnded s (calls.map Command.emission) = true := by
      by_contra hopen
      have hactive := (h.bodies.active s).mpr ⟨hbegun, by simpa using hopen⟩
      rw [hidle] at hactive
      cases hactive
    rw [hended]
    simp only [if_true, Option.map_some, Emitter.preamble, h.preamble.declarations]
    rw [renderedSource]
    simp only [preambleText, headerText, Body.text, List.map_append, joinTexts_append, if_true,
      String.append_assoc]

/-- **A built program holds the rendered sources.**  Whatever calls a new program answers, and
however many of them are refused: if it is built, then its texts belong to the stages that were
begun, in pipeline order, and each text is the reference rendering of the accepted calls. -/
theorem build_renders (sizes : TableSizes) (commands : List Command) (texts : Sources)
    (h : (build (run commands (new sizes))).result = .ok texts) :
    let calls := Action.accepted step commands (new sizes)
    (texts.stages.map (·.1)).Pairwise (· < ·) ∧
      (∀ s, s ∈ texts.stages.map (·.1) ↔ .beginStage s ∈ calls.map Command.emission) ∧
      ∀ s text, (s, text) ∈ texts.stages → text = renderedSource sizes calls s := by
  intro calls
  obtain ⟨hidle, hstages⟩ := sources_of_build h
  -- the emitter of the program runs through the emissions of the accepted calls
  have hchain : Chain Transition (new sizes) calls (run commands (new sizes)) :=
    chain_run (Emitter.wellFormed_new sizes) commands
  have hreflects : Emitter.Reflects sizes (calls.map Command.emission)
      (run commands (new sizes)).emitter :=
    Emitter.reflects_of_chain (hchain.image (·.emitter) Command.emission fun hT => hT.emitter)
  have hindex := highestIndex_of_chain hchain rfl
  have hsource (s : Stage) := finished_source? hreflects hindex hidle s
  rw [hstages]
  refine ⟨sources_ordered _, fun s => ?_, fun s text htext => ?_⟩
  · rw [← hasBegun_iff, List.mem_map]
    constructor
    · rintro ⟨⟨t, text⟩, hmem, rfl⟩
      have htext := mem_sources_iff.mp hmem
      rw [hsource] at htext
      by_contra hbegun
      rw [if_neg hbegun] at htext
      cases htext
    · intro hbegun
      exact ⟨(s, _), mem_sources_iff.mpr ((hsource s).trans (if_pos hbegun)), rfl⟩
  · have hsome := mem_sources_iff.mp htext
    rw [hsource] at hsome
    split at hsome
    · exact (Option.some.inj hsome).symm
    · cases hsome

/-- A struct, a buffer, two samplers in one table, an image and a uniform block, in front of two
stages that share a value.  The stages are begun out of pipeline order, and an end that comes too
early is refused. -/
theorem build_renders_two_stages :
    let light : StructType :=
      ⟨"Light", [⟨"color", .numeric (.vector .float 3), 1⟩,
        ⟨"falloff", .numeric (.scalar .float), 4⟩]⟩
    let commands : List Command :=
      [.addStruct light,
        .addBinding ⟨"lights", .buffer .readOnly (some (.struct light))⟩,
        .addBinding ⟨"linear", .sampler .none⟩,
        .addBinding ⟨"target", .image .d2 (some ⟨.unsigned, 4, 1⟩)⟩,
        .addUniform ⟨"scene", .buffer .uniform (some (.struct light))⟩,
        .addVarying ⟨"uv", .numeric (.vector .float 2), 1, .varying false⟩ .vertex .fragment,
        .addBinding ⟨"nearest", .sampler .none⟩,
        .beginStage .fragment, .useIndex 3, .endStage,
        .beginStage .vertex, .direct (.perform (.openBlock .otherwise)), .endStage,
        .direct (.perform .closeBlock), .endStage]
    ∃ texts, (build (run commands (new .standard))).result = .ok texts ∧
      texts.stages.map (·.1) = [.vertex, .fragment] ∧
      ∀ text, (.fragment, text) ∈ texts.stages → text =
        "/// This file generated by vslc\n#version 450 core\n" ++
        "#extension GL_EXT_scalar_block_layout : require\n\n" ++
        "struct Light_t \x7b\n\tvec3 color;\n\tfloat falloff[4];\n\x7d;\n\n" ++
        "layout(set = 0, binding = 2, std430) readonly buffer _BUFFER0_ \x7b\n" ++
        "\tLight_t _data_[];\n\x7d lights[512];\n\n" ++
        "layout(set = 0, binding = 0) uniform sampler _sampler_TABLE_[1024];\n\n" ++
        "layout(set = 0, binding = 1, r32ui) uniform uimage2D _uimage2D_r32ui_TABLE_[256];\n\n" ++
        "layout(set = 1, binding = 0, scalar) uniform _UBUFFER0_ \x7b\n" ++
        "\tLight_t scene;\n\x7d;\n\n" ++
        "layout (push_constant) uniform _BINDING_INDICES_ \x7b\n" ++
        "\tuint index0;\n\tuint index1;\n\x7d _bidx_;\n\n" ++
        "layout(location = 0) in vec2 _frag_uv;\n\n" ++
        "void main()\n\x7b\n\tuint _bidx3_ = (_bidx_.index1 >> 16);\n\x7d\n\n" := by
  intro light commands
  have hnames : ((build (run commands (new .standard))).result.toOption.map
      fun texts => texts.stages.map (·.1)) = some [.vertex, .fragment] := by
    decide +kernel
  obtain ⟨texts, hbuilt, hstages⟩ := Option.map_eq_some_iff.mp hnames
  have hok : (build (run commands (new .standard))).result = .ok texts := by
    cases hresult : (build (run commands (new .standard))).result with
    | error e =>
      rw [hresult] at hbuilt
      cases hbuilt
    | ok built =>
      rw [hresult] at hbuilt
      cases hbuilt
      rfl
  refine ⟨texts, hok, hstages, fun text hmem => ?_⟩
  obtain ⟨-, -, htext⟩ := build_renders .standard commands texts hok
  rw [htext .fragment text hmem]
  decide +kernel

end Program

end GlslEmit
