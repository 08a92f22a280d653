/-
# The push-constant block of a built program

A program reads sub-indices stage by stage and declares the fields that hold them once, at the end,
for the largest sub-index that was used.  Every line that reads a sub-index stems from an accepted
use, so its field is declared, and it is declared in front of all bodies.  Two kinds of command
would break this, and they are left out: a direct reading is not counted as a use, and a direct
declaration of the block is one block more.

* `Program.small_of_used`: used sub-indices fit the mask, so that the block is never refused;
* `Program.build_error_iff`: a program is built unless a stage is active;
* `Program.used_of_line`: every line that reads a sub-index stems from a use;
* `Program.push_constants_cover`: the block of a built program and the fields that its bodies read.
-/
import GlslEmit.Proofs.Program.Rendering
import GlslEmit.Proofs.Emitter.Declaration
import GlslEmit.Proofs.Emitter.SubIndex
import GlslEmit.Proofs.Body.Unpacking

namespace GlslEmit

/-! ## The block and its fields -/

/-- Whether a declaration is a push-constant block. -/
def Declaration.isPushConstants : Declaration → Bool
  | pushConstants _ => true
  | _ => false

/-- The block for the sub-indices up to a largest one has the fields from 0 to the half of it. -/
theorem pushConstants_text (max : UInt32) :
    (Declaration.pushConstants (max / 2 + 1)).text =
      "layout (push_constant) uniform _BINDING_INDICES_ \x7b\n" ++
        joinTexts ((List.range (max.toNat / 2 + 1)).map fun field =>
          "\tuint index" ++ toString field ++ ";\n") ++
        "\x7d _bidx_;\n\n" := by
  have hlines : (fieldNames (subIndexFields max)).map (fun name => "\tuint " ++ name ++ ";\n") =
      (List.range (max.toNat / 2 + 1)).map fun field =>
        "\tuint index" ++ toString field ++ ";\n" := by
    rw [fieldNames, toNat_subIndexFields, List.map_map]
    refine List.map_congr_left fun field _ => ?_
    have hword : "\tuint " ++ "index" = "\tuint index" := by decide
    rw [Function.comp, ← String.append_assoc, hword]
  rw [← hlines]
  exact text_of_fieldNames _

/-- A declaration of the preamble stands before a line of the body. -/
theorem exists_source_eq {declarations : List Declaration} {d : Declaration}
    (hd : d ∈ declarations) (header : String) {body : Body} {l : IndentedLine}
    (hl : l ∈ body.lines) :
    ∃ before between after, preambleText declarations ++ header ++ body.text =
      before ++ d.text ++ between ++ l.text ++ after := by
  obtain ⟨x, y, hpreamble⟩ := exists_joinTexts_eq (List.mem_map_of_mem (f := Declaration.text) hd)
  obtain ⟨z, w, hlines⟩ := exists_joinTexts_eq (List.mem_map_of_mem (f := IndentedLine.text) hl)
  refine ⟨versionText ++ x, y ++ header ++ entryOpen ++ z,
    w ++ (if body.closed then entryClose else ""), ?_⟩
  rw [preambleText, hpreamble, Body.text, hlines]
  simp only [String.append_assoc]

namespace Program

variable {p q : Program} {c : Command}

/-! ## Used sub-indices -/

theorem max?_eq_some_iff {indices : List UInt32} {max : UInt32} :
    indices.max? = some max ↔ max ∈ indices ∧ ∀ index ∈ indices, index ≤ max := by
  have hmax (a b : UInt32) : Max.max a b = if a ≤ b then b else a := rfl
  have hlawful : Std.LawfulOrderMax UInt32 :=
    { max_eq_or := fun a b => by
        rw [hmax]
        split
        · exact Or.inr rfl
        · exact Or.inl rfl
      max_le_iff := fun a b c => by
        rw [hmax]
        simp only [UInt32.le_iff_toNat_le]
        split <;> omega }
  exact List.max?_eq_some_iff

/-- Some sub-indices have a largest one, unless there are none. -/
theorem exists_largest {indices : List UInt32} {index : UInt32} (h : index ∈ indices) :
    ∃ max ∈ indices, ∀ index ∈ indices, index ≤ max := by
  cases indices with
  | nil => cases h
  | cons x xs => exact ⟨_, max?_eq_some_iff.mp List.max?_cons'⟩

/-- A used sub-index fits the mask. -/
theorem small_of_used {calls : List Command} (h : Chain Transition p calls q) {index : UInt32}
    (hused : index ∈ calls.filterMap Command.usedIndex?) : index < maxSubIndices := by
  obtain ⟨c, hc, hindex⟩ := List.mem_filterMap.mp hused
  obtain ⟨u, v, hT⟩ := h.exists_step hc
  have hread : c.emission = .perform (.unpack index) := by
    cases c with
    | useIndex other =>
      cases hindex
      rfl
    | _ => cases hindex
  have hemitter := hT.emitter
  rw [hread] at hemitter
  exact hemitter.small_of_unpack

/-- What is read is read by a use, or directly. -/
theorem Command.emission_eq_unpack {index : UInt32} (h : c.emission = .perform (.unpack index)) :
    c = .useIndex index ∨ c = .direct (.perform (.unpack index)) := by
  cases c with
  | useIndex other =>
    cases h
    exact Or.inl rfl
  | direct c => exact Or.inr (congrArg Command.direct h)
  | _ => cases h

theorem Command.emission_eq_declareIndices {max : UInt32} (h : c.emission = .declareIndices max) :
    c = .direct (.declareIndices max) := by
  cases c with
  | direct c => exact congrArg Command.direct h
  | _ => cases h

/-- The emitter of a program runs through the emissions of the accepted calls. -/
theorem emitter_chain (sizes : TableSizes) (commands : List Command) :
    Chain Emitter.Transition (.new sizes)
      ((Action.accepted step commands (new sizes)).map Command.emission)
      (run commands (new sizes)).emitter :=
  (chain_run (p := new sizes) (Emitter.wellFormed_new sizes) commands).image (·.emitter)
    Command.emission fun hT => hT.emitter

section Run

variable {sizes : TableSizes} {commands : List Command}

/-- Every line that reads a sub-index stems from a use, unless there are direct readings. -/
theorem used_of_line (hdirect : ∀ index, .direct (.perform (.unpack index)) ∉ commands)
    {s : Stage} {body : Body}
    (hbody : ((run commands (new sizes)).emitter.outputs.get s).body = some body)
    {l : IndentedLine} (hl : l ∈ body.lines) {index : UInt32} (hline : l.line = .unpack index) :
    index ∈ (Action.accepted step commands (new sizes)).filterMap Command.usedIndex? := by
  have hread := Emitter.unpack_mem_of_chain (emitter_chain sizes commands) hbody hl hline
  obtain ⟨c, hc, hemission⟩ := List.mem_map.mp hread
  rcases Command.emission_eq_unpack hemission with rfl | rfl
  · exact List.mem_filterMap.mpr ⟨_, hc, rfl⟩
  · exact absurd ((Action.accepted_sublist commands (new sizes)).subset hc) (hdirect index)

/-- Before a program is finished its preamble has no push-constant block, unless there are direct
declarations of one. -/
theorem isPushConstants_eq_false (hdirect : ∀ index, .direct (.declareIndices index) ∉ commands)
    {d : Declaration} (hd : d ∈ (run commands (new sizes)).emitter.declarations) :
    d.isPushConstants = false := by
  cases d with
  | pushConstants fields =>
    rcases Emitter.declares_of_chain (emitter_chain sizes commands) hd with
      hnew | ⟨e, he, hdeclares⟩
    · cases hnew
    · obtain ⟨max, rfl⟩ := hdeclares.of_pushConstants
      obtain ⟨c, hc, hemission⟩ := List.mem_map.mp he
      obtain rfl := Command.emission_eq_declareIndices hemission
      exact absurd ((Action.accepted_sublist commands (new sizes)).subset hc) (hdirect max)
  | _ => rfl

end Run

/-! ## Finishing -/

theorem build_of_active {s : Stage} (hactive : p.emitter.active = some s) :
    build p = .refused p (.emission (.sequence (.stageNotEnded s))) :=
  Action.bind_refused (Action.check_refused (by rw [hactive])) _

/-- A program without an active stage is built: its push-constant block is not refused. -/
theorem build_of_idle (hidle : p.emitter.active = none)
    (hsmall : ∀ max, p.highestIndex = some max → max < maxSubIndices) :
    ∃ texts, (build p).result = .ok texts := by
  have hindices : ∃ q log, declareUsedIndices p = .accepted q () log := by
    cases hmax : p.highestIndex with
    | none => exact ⟨p, [], by rw [declareUsedIndices, hmax]⟩
    | some max =>
      have hblock := Emitter.declareIndices_accepted (g := p.emitter) (hsmall max hmax)
      have hemit : emitting (Emitter.declareIndices max) p =
          .accepted { p with emitter := p.emitter.declare (.pushConstants (subIndexFields max)) }
            (subIndexFields max) [] := by
        rw [emitting, Action.within, hblock]
        rfl
      exact ⟨_, _, by
        rw [declareUsedIndices, hmax]
        exact Action.bind_accepted hemit rfl⟩
  obtain ⟨q, log, hq⟩ := hindices
  have hbuild : build p = .accepted q ⟨q.emitter.sources⟩
      (log ++ [.programBuilt q.emitter.sources.length]) := by
    refine Eq.trans (Action.bind_of_check (a := ()) (by rw [hidle]) _) ?_
    exact Action.bind_accepted hq rfl
  exact ⟨_, by rw [hbuild]; rfl⟩

/-- A program whose used sub-indices fit the mask is built unless a stage is active. -/
theorem build_error_iff (hsmall : ∀ max, p.highestIndex = some max → max < maxSubIndices)
    (e : ProgramError) : (build p).result = .error e ↔
      ∃ s, p.emitter.active = some s ∧ e = .emission (.sequence (.stageNotEnded s)) := by
  cases hactive : p.emitter.active with
  | some s =>
    rw [build_of_active hactive]
    constructor
    · intro h
      exact ⟨s, rfl, (Except.error.inj h).symm⟩
    · rintro ⟨t, ht, rfl⟩
      cases ht
      rfl
  | none =>
    obtain ⟨texts, htexts⟩ := build_of_idle hactive hsmall
    rw [htexts]
    constructor
    · intro h
      cases h
    · rintro ⟨s, hs, -⟩
      cases hs

/-- The finished block is the one for the largest used sub-index. -/
theorem pushConstantsFor_of_largest {calls : List Command} {max : UInt32}
    (hmem : max ∈ calls.filterMap Command.usedIndex?)
    (hle : ∀ index ∈ calls.filterMap Command.usedIndex?, index ≤ max) :
    pushConstantsFor calls = [.pushConstants (max / 2 + 1)] := by
  rw [pushConstantsFor, max?_eq_some_iff.mpr ⟨hmem, hle⟩]
  rfl

theorem pushConstantsFor_of_unused {calls : List Command}
    (h : calls.filterMap Command.usedIndex? = []) : pushConstantsFor calls = [] := by
  rw [pushConstantsFor, h]
  rfl

/-- **The push-constant block covers every sub-index that is read.**  Take any calls among which
there is neither a direct reading of a sub-index nor a direct declaration of the block.  Building is
refused exactly while a stage is active, and for that reason alone.  If no sub-index was used, no
block is declared; if some were, the preamble has exactly one block, whose fields go from 0 to the
half of the largest one.  And each built source consists of this preamble, the header and the body
of its stage.  A line of the body that reads a sub-index names one field of the block, in an
expression that can be read back; the block declares this field, and stands before the line. -/
theorem push_constants_cover (sizes : TableSizes) (commands : List Command)
    (hdirect : ∀ index, .direct (.perform (.unpack index)) ∉ commands ∧
      .direct (.declareIndices index) ∉ commands) :
    let p := run commands (new sizes)
    let calls := Action.accepted step commands (new sizes)
    let used := calls.filterMap Command.usedIndex?
    let declarations := p.emitter.declarations ++ pushConstantsFor calls
    (∀ e, (build p).result = .error e ↔
      ∃ s, p.emitter.active = some s ∧ e = .emission (.sequence (.stageNotEnded s))) ∧
    (used = [] → declarations.filter (·.isPushConstants) = []) ∧
    (∀ max ∈ used, (∀ index ∈ used, index ≤ max) →
      declarations.filter (·.isPushConstants) = [.pushConstants (max / 2 + 1)] ∧
      (Declaration.pushConstants (max / 2 + 1)).text =
        "layout (push_constant) uniform _BINDING_INDICES_ \x7b\n" ++
          joinTexts ((List.range (max.toNat / 2 + 1)).map fun field =>
            "\tuint index" ++ toString field ++ ";\n") ++
          "\x7d _bidx_;\n\n") ∧
    ∀ texts, (build p).result = .ok texts → ∀ s text, (s, text) ∈ texts.stages →
      ∃ body, (p.emitter.outputs.get s).body = some body ∧
        text = preambleText declarations ++ headerText (p.emitter.outputs.get s).header ++
          body.text ∧
        ∀ l ∈ body.lines, ∀ index, l.line = .unpack index →
          ∃ max ∈ used, (∀ index ∈ used, index ≤ max) ∧
            (SubIndexPlace.of index).field < max / 2 + 1 ∧
            (∃ expression e, l.text =
                indentation l.depth ++ "uint _bidx" ++ toString index ++ "_ = " ++ expression ++
                  ";\n" ∧
              expression = "(_bidx_.index" ++ toString (index.toNat / 2) ++
                (if index.toNat % 2 = 0 then " & 0xFFFF)" else " >> 16)") ∧
              FieldExpression.parse? expression = some e ∧ e.block = "_bidx_" ∧
              e.field = "index" ++ toString (index.toNat / 2) ∧
              ∃ before after, (Declaration.pushConstants (max / 2 + 1)).text =
                before ++ ("\tuint " ++ e.field ++ ";\n") ++ after) ∧
            ∃ before between after, text =
              before ++ (Declaration.pushConstants (max / 2 + 1)).text ++ between ++ l.text ++
                after := by
  intro p calls used declarations
  have hchain : Chain Transition (new sizes) calls p :=
    chain_run (p := new sizes) (Emitter.wellFormed_new sizes) commands
  have hindex : p.highestIndex = used.max? := highestIndex_of_chain hchain rfl
  have hnone : p.emitter.declarations.filter (·.isPushConstants) = [] :=
    List.filter_eq_nil_iff.mpr fun d hd =>
      Bool.not_eq_true _ ▸ isPushConstants_eq_false (fun index => (hdirect index).2) hd
  refine ⟨build_error_iff fun max hmax => ?_, fun hunused => ?_,
    fun max hmem hle => ⟨?_, pushConstants_text max⟩, fun texts htexts s text htext => ?_⟩
  · exact small_of_used hchain (max?_eq_some_iff.mp (hindex ▸ hmax)).1
  · rw [List.filter_append, hnone, pushConstantsFor_of_unused hunused]
    rfl
  · rw [List.filter_append, hnone, pushConstantsFor_of_largest hmem hle]
    rfl
  · obtain ⟨hidle, hstages⟩ := sources_of_build htexts
    rw [hstages, mem_sources_iff, finished_eq p calls hindex, Emitter.source?, hidle,
      if_neg (Option.some_ne_none s).symm] at htext
    obtain ⟨body, hbody, rfl⟩ := Option.map_eq_some_iff.mp htext
    refine ⟨body, hbody, rfl, fun l hl index hline => ?_⟩
    have hused := used_of_line (fun index => (hdirect index).1) hbody hl hline
    obtain ⟨max, hmem, hle⟩ := exists_largest hused
    have hreads := unpack_reads_field (hle index hused) l.depth
    rw [← hline] at hreads
    refine ⟨max, hmem, hle, SubIndexPlace.field_of_lt (hle index hused), hreads,
      exists_source_eq ?_ _ hl⟩
    rw [List.mem_append, pushConstantsFor_of_largest hmem hle]
    exact Or.inr (List.mem_singleton.mpr rfl)

/-- Two stages that read the sub-indices 3 and 6, one of them inside a block and one twice, with a
sub-index in between that does not fit: the block has the fields 0 to 3, and the line for 3 reads
the field 1. -/
theorem push_constants_cover_two_stages :
    let commands : List Command :=
      [.beginStage .fragment, .direct (.perform (.openBlock .otherwise)), .useIndex 3,
        .direct (.perform .closeBlock), .useIndex 64, .endStage,
        .beginStage .vertex, .useIndex 6, .useIndex 3, .endStage]
    let p := run commands (new .standard)
    (∀ index, .direct (.perform (.unpack index)) ∉ commands ∧
      .direct (.declareIndices index) ∉ commands) ∧
      ∃ texts text, (build p).result = .ok texts ∧ (.fragment, text) ∈ texts.stages ∧
        (SubIndexPlace.of 3).field < 4 ∧
        (∃ e, FieldExpression.parse? "(_bidx_.index1 >> 16)" = some e ∧ e.block = "_bidx_" ∧
          e.field = "index1") ∧
        ∃ before between after, text =
          before ++
            ("layout (push_constant) uniform _BINDING_INDICES_ \x7b\n" ++
              "\tuint index0;\n\tuint index1;\n\tuint index2;\n\tuint index3;\n" ++
              "\x7d _bidx_;\n\n") ++
            between ++ "\t\tuint _bidx3_ = (_bidx_.index1 >> 16);\n" ++ after := by
  intro commands p
  have hdirect (index : UInt32) : .direct (.perform (.unpack index)) ∉ commands ∧
      .direct (.declareIndices index) ∉ commands := by
    simp [commands]
  have hused : (Action.accepted step commands (new .standard)).filterMap Command.usedIndex? =
      [3, 6, 3] := rfl
  obtain ⟨-, -, hblock, hcover⟩ := push_constants_cover .standard commands hdirect
  obtain ⟨texts, hbuilt, text, htext⟩ : ∃ texts, (build p).result = .ok texts ∧
      ∃ text, (.fragment, text) ∈ texts.stages :=
    ⟨_, rfl, _, List.mem_cons_of_mem _ List.mem_cons_self⟩
  obtain ⟨body, hbody, -, hlines⟩ := hcover texts hbuilt .fragment text htext
  have hread : (⟨2, .unpack 3⟩ : IndentedLine) ∈ body.lines := by
    have heq : body =
        ⟨[⟨1, .opener .otherwise⟩, ⟨2, .unpack 3⟩, ⟨1, .close⟩], true⟩ :=
      (Option.some.inj hbody).symm
    rw [heq]
    simp
  obtain ⟨max, hmem, hle, hfield, ⟨expression, e, hline, hexpression, hparsed, hname, hword, -⟩,
    before, between, after, hplace⟩ := hlines _ hread 3 rfl
  obtain ⟨-, hfields⟩ := hblock max hmem hle
  have hmax : max = 6 := by
    rw [hused] at hmem hle
    have hsix := hle 6 (by simp)
    simp only [List.mem_cons, List.not_mem_nil, or_false] at hmem
    rcases hmem with rfl | rfl | rfl
    · exact absurd hsix (by decide)
    · rfl
    · exact absurd hsix (by decide)
  rw [hmax] at hfield hfields hplace
  have hspelled : expression = "(_bidx_.index1 >> 16)" := hexpression.trans (by decide)
  rw [hspelled] at hline hparsed
  rw [hfields, hline] at hplace
  exact ⟨hdirect, texts, text, hbuilt, htext, hfield, ⟨e, hparsed, hname, hword⟩,
    before, between, after, hplace⟩

end Program

end GlslEmit
