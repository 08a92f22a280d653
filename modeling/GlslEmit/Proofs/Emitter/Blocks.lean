/-
# Blocks of the preamble

A preamble has three kinds of blocks.  The block of a buffer has a number in its name, which counts
the accepted buffer bindings; the uniform block has a fixed name, and is declared once; the
push-constant block has a fixed name too, and is declared as often as it is asked for.

* `text_of_numbered` is the text of a buffer's block, and `Declaration.exists_text_of_block` finds
  the name of any block;
* `Emitter.count_blocks_of_chain`: how often the blocks with fixed names occur;
* `Emitter.uniformDeclared_run_iff`: which uniform block of a run is accepted;
* `Emitter.blocks_numbered` puts these together;
* `Emitter.block_names_not_always_different`: two push-constant blocks have the same name.
-/
import GlslEmit.Proofs.Emitter.Identifiers
import GlslEmit.Proofs.Emitter.Completeness

namespace GlslEmit

/-! ## Texts and names -/

/-- The text of the block of a buffer, with its number. -/
theorem text_of_numbered (sizes : TableSizes) (kind : BufferKind) (body name : String) {k : Nat}
    (hk : k < UInt32.size) :
    (Declaration.bufferBlock
      ⟨UInt32.ofNat k, kind, ResourceClass.buffers.slot sizes, body, name⟩).text =
        "layout(set = 0, binding = 2, " ++ (if kind = .uniform then "std140" else "std430") ++
          ") " ++ kind.storageText ++ " _BUFFER" ++ toString k ++ "_ \x7b\n\t" ++
          structToken body ++ " _data_" ++ (if kind = .uniform then "" else "[]") ++ ";\n\x7d " ++
          name ++ "[" ++ toString sizes.buffers ++ "];\n\n" := by
  have hpacking : kind.packing.text = if kind = .uniform then "std140" else "std430" := by
    cases kind <;> rfl
  have hsuffix : kind.memberSuffix = if kind = .uniform then "" else "[]" := by
    cases kind <;> rfl
  have hnumber : toString (UInt32.ofNat k) = toString k :=
    congrArg Nat.repr (UInt32.toNat_ofNat_of_lt' hk)
  have hplace : "layout(set = 0, binding = 2, " =
      "layout(set = " ++ (toString 0 ++ (", binding = " ++ (toString 2 ++ ", "))) := by decide
  have hclose : ") " = ")" ++ " " := by decide
  have hname : " _BUFFER" = " " ++ "_BUFFER" := by decide
  have hopen : "_ \x7b\n\t" = "_" ++ " \x7b\n\t" := by decide
  rw [text_bufferBlock, layoutText_eq, ← hpacking, ← hsuffix, ← hnumber, hplace, hclose, hname,
    hopen]
  simp only [BufferBlock.blockName, Option.map_some, Option.elim_some, String.append_assoc,
    -String.reduceAppend]
  rfl

/-- The name of a block stands in front of its opening brace. -/
theorem Declaration.exists_text_of_block {d : Declaration} {i : Identifier}
    (h : d.block? = some i) : ∃ front rest, d.text = front ++ i.text ++ " \x7b\n" ++ rest := by
  cases d with
  | uniformBlock body name =>
    cases h
    have hblock : ", binding = 0, scalar) uniform _UBUFFER0_ " =
        ", binding = 0, scalar) uniform " ++ "_UBUFFER0_" ++ " " := by decide
    have hopen : " \x7b\n" = " " ++ "\x7b\n" := by decide
    have hline : "\x7b\n\t" = "\x7b\n" ++ "\t" := by decide
    refine ⟨"layout(set = " ++ toString uniformSet ++ ", binding = 0, scalar) uniform ",
      "\t" ++ (structToken body ++ " " ++ name ++ ";\n\x7d;\n\n"), ?_⟩
    rw [text_uniformBlock, hblock, hopen, hline]
    simp only [Identifier.text, String.append_assoc, -String.reduceAppend]
  | bufferBlock b =>
    cases h
    have hline : " \x7b\n\t" = " \x7b\n" ++ "\t" := by decide
    refine ⟨layoutText b.slot (some b.kind.packing) ++ " " ++ b.kind.storageText ++ " ",
      "\t" ++ (structToken b.body ++ " _data_" ++ b.kind.memberSuffix ++ ";\n\x7d " ++
        b.name ++ "[" ++ toString b.slot.tableSize ++ "];\n\n"), ?_⟩
    rw [text_bufferBlock, hline]
    simp only [BufferBlock.blockName, Identifier.text, String.append_assoc, -String.reduceAppend]
  | pushConstants fields =>
    cases h
    exact ⟨"layout (push_constant) uniform ",
      GlslEmit.pushConstantFields fields ++ ("\x7d " ++ pushConstantInstance ++ ";\n\n"),
      by simp only [text_pushConstants, Identifier.text, String.append_assoc]⟩
  | _ => cases h

/-- Blocks are made up, so their names tell them apart. -/
theorem Declaration.kind_of_block {d : Declaration} {i : Identifier} (h : d.block? = some i) :
    i.Proper ∧ ∃ k, i.kind? = some k := by
  cases d with
  | uniformBlock body name => cases h; exact ⟨trivial, _, rfl⟩
  | bufferBlock b => cases h; exact ⟨trivial, _, rfl⟩
  | pushConstants fields => cases h; exact ⟨trivial, _, rfl⟩
  | _ => cases h

/-- Among made-up identifiers, a spelling occurs as often as its identifier. -/
theorem Identifier.count_text {identifiers : List Identifier}
    (hmade : ∀ i ∈ identifiers, i.Proper ∧ ∃ k, i.kind? = some k) {i : Identifier} {k : Kind}
    (hi : i.Proper) (hk : i.kind? = some k) :
    (identifiers.map text).count i.text = identifiers.count i := by
  rw [List.count, List.countP_map, List.count]
  refine List.countP_congr fun j hj => ?_
  obtain ⟨hproper, l, hl⟩ := hmade j hj
  simp only [Function.comp, beq_iff_eq]
  exact ⟨fun h => eq_of_text_of_kind hproper hi hl hk h, fun h => congrArg text h⟩

namespace Emitter

/-! ## Blocks of a run -/

namespace Command

/-- Whether a command declares the uniform block. -/
def isUniform : Command → Bool
  | declareUniform _ => true
  | _ => false

/-- Whether a command declares the push-constant block. -/
def isIndices : Command → Bool
  | declareIndices _ => true
  | _ => false

end Command

variable {sizes : TableSizes} {history : List Command} {g g' : Emitter} {c : Command}
variable {v : ResourceVariable}

theorem made_of_mem_blocks {i : Identifier} (h : i ∈ g.blocks) :
    i.Proper ∧ ∃ k, i.kind? = some k := by
  obtain ⟨d, -, hd⟩ := List.mem_filterMap.mp h
  exact Declaration.kind_of_block hd

/-- A block that commands of one kind declare, and only those, is declared by each of them. -/
theorem count_blocks_of_chain {i : Identifier} {p : Command → Bool}
    (hp : ∀ (c : Command) (next : UInt32), c.block? next = some i ↔ p c = true)
    (h : Chain Transition (new sizes) history g) : g.blocks.count i = history.countP p := by
  induction h with
  | refl => rfl
  | @snoc history c t u _ hT ih =>
    rw [hT.blocks_eq, List.count_append, ih]
    cases hc : p c with
    | true =>
      rw [countP_snoc_of_true hc, (hp c t.nextBlock).mpr hc]
      simp
    | false =>
      have hother : c.block? t.nextBlock ≠ some i := by
        rw [Ne, hp, hc]
        exact Bool.false_ne_true
      rw [countP_snoc_of_false hc]
      cases hblock : c.block? t.nextBlock with
      | none => rfl
      | some j =>
        rw [hblock, Ne, Option.some.injEq] at hother
        simp [hother]

theorem count_uniformBlock_of_chain (h : Chain Transition (new sizes) history g) :
    g.blocks.count .uniformBlock = history.countP Command.isUniform := by
  refine count_blocks_of_chain (fun c next => ?_) h
  cases c <;> simp [Command.block?, Command.isUniform]

theorem count_pushConstants_of_chain (h : Chain Transition (new sizes) history g) :
    g.blocks.count .pushConstants = history.countP Command.isIndices := by
  refine count_blocks_of_chain (fun c next => ?_) h
  cases c <;> simp [Command.block?, Command.isIndices]

theorem count_bufferBlock (identifiers : List Identifier) (id : UInt32) :
    identifiers.count (.bufferBlock id) = (identifiers.filterMap Identifier.blockId?).count id := by
  induction identifiers with
  | nil => rfl
  | cons i rest ih =>
    cases i <;> simp [List.filterMap_cons, Identifier.blockId?, List.count_cons, ih]

/-- As long as the numbers suffice, no two blocks have the same number. -/
theorem count_bufferBlock_of_chain (h : Chain Transition (new sizes) history g)
    (few : history.countP Command.isBlock < UInt32.size) (id : UInt32) :
    g.blocks.count (.bufferBlock id) ≤ 1 := by
  have hnodup : ((List.range (history.countP Command.isBlock)).map UInt32.ofNat).Nodup := by
    refine List.Nodup.map_on (fun j hj k hk hsame => ?_) List.nodup_range
    rw [List.mem_range] at hj hk
    exact numbered_injective (by omega) (by omega) hsame
  rw [count_bufferBlock, ← blockIds_eq_filterMap, blockIds_of_chain h]
  exact List.nodup_iff_count_le_one.mp hnodup id

/-! ## The uniform block -/

/-- A uniform buffer with a struct for its body. -/
def IsUniformStruct (t : ShaderType) : Prop := ∃ s, t = .buffer .uniform (some (.struct s))

theorem Transition.first_of_uniform (h : Transition g (.declareUniform v) g') :
    ¬ g.uniformDeclared = true := by
  cases h with
  | declareUniform first form => exact first

/-- A uniform block is accepted if it is the first one and its type is a uniform buffer of a
struct. -/
theorem isOk_declareUniform_iff :
    (step (.declareUniform v) g).result.isOk = true ↔
      ¬ g.uniformDeclared = true ∧ IsUniformStruct v.type := by
  constructor
  · intro hok
    have hsettles : (step (.declareUniform v)).Settles g (Transition g (.declareUniform v)) :=
      (declareUniform_settles v).answer _
    have hT := hsettles.of_isOk hok
    exact ⟨hT.first_of_uniform, hT.type_of_uniform⟩
  · rintro ⟨first, s, htype⟩
    have form : uniformDeclaration v = .ok (.uniformBlock s.name v.name) := by
      rw [uniformDeclaration, htype]
      rfl
    have hstep : step (.declareUniform v) g = _ :=
      Action.bind_accepted (declareUniform_accepted first form) rfl
    rw [hstep]
    rfl

/-- Only an attempt with a right type makes the emitter remember the uniform block. -/
theorem uniformDeclared_step (hg : g.WellFormed) :
    (step c g).state.uniformDeclared = true ↔
      g.uniformDeclared = true ∨ ∃ v, c = .declareUniform v ∧ IsUniformStruct v.type := by
  rcases step_settles c g hg with ⟨e, hrefused⟩ | ⟨t, a, log, haccepted, hT⟩
  · have hstate : (step c g).state = g := by rw [hrefused]; rfl
    rw [hstate]
    refine (or_iff_left_of_imp ?_).symm
    rintro ⟨v, rfl, htype⟩
    -- with a right type, only an earlier uniform block is a reason to refuse
    by_contra hfirst
    have hok := isOk_declareUniform_iff.mpr ⟨hfirst, htype⟩
    rw [hrefused] at hok
    cases hok
  · have hstate : (step c g).state = t := by rw [haccepted]; rfl
    rw [hstate]
    cases hT with
    | @declareUniform v d first form =>
      obtain ⟨s, htype, -⟩ := uniformDeclaration_eq_ok form
      exact iff_of_true rfl (Or.inr ⟨v, rfl, s, htype⟩)
    | _ => exact (or_iff_left (by simp)).symm

/-- A run remembers the uniform block if it met one with a right type. -/
theorem uniformDeclared_run_iff (sizes : TableSizes) (commands : List Command) :
    (run commands (new sizes)).uniformDeclared = true ↔
      ∃ v, .declareUniform v ∈ commands ∧ IsUniformStruct v.type := by
  induction commands using List.reverseRecOn with
  | nil => exact iff_of_false Bool.false_ne_true (by simp)
  | append_singleton commands c ih =>
    have hwell : (run commands (new sizes)).WellFormed :=
      wellFormed_run (wellFormed_new sizes) commands
    have hlast : run (commands ++ [c]) (new sizes) = (step c (run commands (new sizes))).state :=
      run_append_cons commands c [] _
    rw [hlast, uniformDeclared_step hwell, ih, ← exists_or]
    refine exists_congr fun v => ?_
    rw [List.mem_append, List.mem_singleton, or_and_right, @eq_comm Command c]

theorem countP_isUniform_of_chain (h : Chain Transition (new sizes) history g) :
    history.countP Command.isUniform = if g.uniformDeclared then 1 else 0 := by
  induction h with
  | refl => rfl
  | @snoc history c t u _ hT ih =>
    cases hT with
    | declareUniform first form =>
      rw [if_neg first] at ih
      rw [countP_snoc_of_true rfl, ih]
      rfl
    | _ =>
      rw [countP_snoc_of_false rfl]
      exact ih

/-! ## Numbered blocks -/

/-- An accepted buffer binding declares the block with the next number. -/
theorem Transition.declares_block (h : Transition g (.declareBinding v) g')
    (hbuffer : v.type.isBuffer = true) :
    ∃ kind s, v.type = .buffer kind (some (.struct s)) ∧
      g'.declarations = g.declarations ++
        [.bufferBlock ⟨g.nextBlock, kind, ResourceClass.buffers.slot g.sizes, s.name, v.name⟩] := by
  have htable {t : ResourceTable} (form : bindingForm g.sizes g.nextBlock v = .ok (.table t)) :
      False := by
    rw [(spelling_of_table form).1] at hbuffer
    cases hbuffer
  cases h with
  | declareBlock form =>
    obtain ⟨kind, s, htype, rfl⟩ := block_eq_ok form
    exact ⟨kind, s, htype, rfl⟩
  | declareTable form fresh => exact (htable form).elim
  | shareTable form declared => exact (htable form).elim

/-- The block of an accepted buffer binding in a run, with the number of the buffer bindings that
were accepted before it. -/
theorem preamble_of_block (hbuffer : v.type.isBuffer = true) {before : List Command}
    (hok : (step (.declareBinding v) (run before (new sizes))).result.isOk = true)
    (few : (Action.accepted step before (new sizes)).countP Command.isBlock < UInt32.size) :
    ∃ kind s, v.type = .buffer kind (some (.struct s)) ∧
      (step (.declareBinding v) (run before (new sizes))).state.preamble =
        (run before (new sizes)).preamble ++
          ("layout(set = 0, binding = 2, " ++ (if kind = .uniform then "std140" else "std430") ++
            ") " ++ kind.storageText ++ " _BUFFER" ++
            toString ((Action.accepted step before (new sizes)).countP Command.isBlock) ++
            "_ \x7b\n\t" ++ structToken s.name ++ " _data_" ++
            (if kind = .uniform then "" else "[]") ++ ";\n\x7d " ++ v.name ++ "[" ++
            toString sizes.buffers ++ "];\n\n") := by
  have hwell : (run before (new sizes)).WellFormed := wellFormed_run (wellFormed_new sizes) before
  have hreflects := (reflects_run sizes before).preamble
  have hT := (step_settles (.declareBinding v) _ hwell).of_isOk hok
  obtain ⟨kind, s, htype, hadded⟩ := hT.declares_block hbuffer
  rw [hreflects.nextBlock, hreflects.sizes_eq] at hadded
  refine ⟨kind, s, htype, ?_⟩
  rw [preamble_of_declarations hadded, ← text_of_numbered sizes kind s.name v.name few,
    List.map_singleton, joinTexts, joinTexts, String.append_empty]

/-- What a command of a run has written stays in front of what the later commands write. -/
theorem exists_preamble_eq (sizes : TableSizes) (before : List Command) (c : Command)
    (after : List Command) :
    ∃ rest, (run (before ++ c :: after) (new sizes)).preamble =
      (step c (run before (new sizes))).state.preamble ++ rest := by
  have hwell : (run before (new sizes)).WellFormed := wellFormed_run (wellFormed_new sizes) before
  obtain ⟨later, hlater⟩ := exists_declarations_eq (chain_run (step_wellFormed hwell c) after)
  refine ⟨joinTexts (later.map Declaration.text), ?_⟩
  rw [run_append_cons, preamble_of_declarations hlater]

/-- The names of the blocks: only the push-constant block may occur more than once. -/
theorem count_block_names (h : Chain Transition (new sizes) history g)
    (few : history.countP Command.isBlock < UInt32.size) :
    (g.blocks.map Identifier.text).count "_BINDING_INDICES_" =
      history.countP Command.isIndices ∧
    ∀ name ≠ "_BINDING_INDICES_", (g.blocks.map Identifier.text).count name ≤ 1 := by
  have hcount {i : Identifier} (hi : i ∈ g.blocks) :
      (g.blocks.map Identifier.text).count i.text = g.blocks.count i := by
    obtain ⟨hproper, k, hk⟩ := made_of_mem_blocks hi
    exact Identifier.count_text (fun _ => made_of_mem_blocks) hproper hk
  constructor
  · rw [← count_pushConstants_of_chain h]
    exact Identifier.count_text (i := .pushConstants) (fun _ => made_of_mem_blocks) trivial rfl
  · intro name hname
    by_cases hmem : name ∈ g.blocks.map Identifier.text
    · obtain ⟨i, hi, rfl⟩ := List.mem_map.mp hmem
      rw [hcount hi]
      obtain ⟨d, -, hd⟩ := List.mem_filterMap.mp hi
      cases d with
      | uniformBlock body name =>
        cases hd
        rw [count_uniformBlock_of_chain h, countP_isUniform_of_chain h]
        split <;> omega
      | bufferBlock b =>
        cases hd
        exact count_bufferBlock_of_chain h few b.id
      | pushConstants fields =>
        cases hd
        exact absurd rfl hname
      | _ => cases hd
    · rw [List.count_eq_zero_of_not_mem hmem]
      omega

/-- **Blocks are numbered without gaps.**  Take a run that accepts fewer buffer bindings than there
are numbers.  An accepted buffer binding appends a block with the number of the buffer bindings that
were accepted before it, in set 0 at binding 2: the block of a uniform buffer is aligned as std140
and holds one struct, the others are aligned as std430 and hold an array of structs of any length.
Nothing else takes a number.  A uniform block is accepted exactly if its type is a uniform buffer of
a struct, and it is the first one of the run with such a type.  The name of a block stands in front
of its opening brace.  The push-constant block occurs as often as it was asked for, and the names of
all other blocks are different; so all names are different exactly if the push-constant block was
asked for once at most. -/
theorem blocks_numbered (sizes : TableSizes) (commands : List Command)
    (few : (Action.accepted step commands (new sizes)).countP Command.isBlock < UInt32.size) :
    let g := run commands (new sizes)
    let calls := Action.accepted step commands (new sizes)
    let names := g.blocks.map Identifier.text
    (∀ before v after, commands = before ++ .declareBinding v :: after → v.type.isBuffer = true →
      (step (.declareBinding v) (run before (new sizes))).result.isOk = true →
        (∃ kind s, v.type = .buffer kind (some (.struct s)) ∧
          (step (.declareBinding v) (run before (new sizes))).state.preamble =
            (run before (new sizes)).preamble ++
              ("layout(set = 0, binding = 2, " ++
                (if kind = .uniform then "std140" else "std430") ++ ") " ++ kind.storageText ++
                " _BUFFER" ++
                toString ((Action.accepted step before (new sizes)).countP Command.isBlock) ++
                "_ \x7b\n\t" ++ structToken s.name ++ " _data_" ++
                (if kind = .uniform then "" else "[]") ++ ";\n\x7d " ++ v.name ++ "[" ++
                toString sizes.buffers ++ "];\n\n")) ∧
        ∃ rest, g.preamble = (step (.declareBinding v) (run before (new sizes))).state.preamble ++
          rest) ∧
    (g.nextBlock.toNat = calls.countP Command.isBlock ∧
      g.declarations.filterMap Declaration.blockId? =
        (List.range (calls.countP Command.isBlock)).map UInt32.ofNat) ∧
    (∀ before v after, commands = before ++ .declareUniform v :: after →
      ((step (.declareUniform v) (run before (new sizes))).result.isOk = true ↔
        IsUniformStruct v.type ∧ ∀ w, .declareUniform w ∈ before → ¬ IsUniformStruct w.type)) ∧
    calls.countP Command.isUniform ≤ 1 ∧
    (∀ d ∈ g.declarations, ∀ i, d.block? = some i →
      ∃ front rest, d.text = front ++ i.text ++ " \x7b\n" ++ rest) ∧
    names.count "_BINDING_INDICES_" = calls.countP Command.isIndices ∧
    (∀ name ≠ "_BINDING_INDICES_", names.count name ≤ 1) ∧
    (names.Nodup ↔ calls.countP Command.isIndices ≤ 1) := by
  intro g calls names
  have hchain : Chain Transition (new sizes) calls g := chain_run (wellFormed_new sizes) commands
  obtain ⟨hindices, hothers⟩ := count_block_names hchain few
  refine ⟨fun before v after hsplit hbuffer hok => ?_, ⟨?_, blockIds_of_chain hchain⟩,
    fun before v after _ => ?_, ?_, fun d _ i hi => Declaration.exists_text_of_block hi, hindices,
    hothers, fun hnodup => ?_, fun honce => List.nodup_iff_count_le_one.mpr fun name => ?_⟩
  · have hfew : (Action.accepted step before (new sizes)).countP Command.isBlock <
        UInt32.size := by
      rw [hsplit, Action.accepted_append, List.countP_append] at few
      omega
    refine ⟨preamble_of_block hbuffer hok hfew, ?_⟩
    unfold g
    rw [hsplit]
    exact exists_preamble_eq sizes before (.declareBinding v) after
  · rw [(reflects_run sizes commands).preamble.nextBlock, UInt32.toNat_ofNat_of_lt' few]
  · rw [isOk_declareUniform_iff, uniformDeclared_run_iff, and_comm]
    exact and_congr_right fun _ => by simp
  · rw [countP_isUniform_of_chain hchain]
    split <;> omega
  · rw [← hindices]
    exact List.nodup_iff_count_le_one.mp hnodup _
  · by_cases hname : name = "_BINDING_INDICES_"
    · rw [hname, hindices]
      exact honce
    · exact hothers name hname

/-- A run with a uniform block and a binding that lack their struct, a buffer and a sampler, and
then a second buffer and a uniform block that is accepted. -/
theorem blocks_numbered_mixed :
    let light : ShaderType := .struct ⟨"Light", []⟩
    let data : ResourceVariable := ⟨"data", .buffer .uniform none⟩
    let lights : ResourceVariable := ⟨"lights", .buffer .readOnly (some light)⟩
    let linear : ResourceVariable := ⟨"linear", .sampler .none⟩
    let params : ResourceVariable := ⟨"params", .buffer .uniform (some light)⟩
    let scene : ResourceVariable := ⟨"scene", .buffer .uniform (some light)⟩
    let before : List Command := [.declareUniform data, .declareBinding lights,
      .declareBinding data, .declareBinding linear]
    let commands := before ++ [.declareBinding params, .declareUniform scene]
    let g := run commands (new .standard)
    (Action.accepted step commands (new .standard)).countP Command.isBlock = 2 ∧
      2 < UInt32.size ∧ g.nextBlock.toNat = 2 ∧
      (step (.declareBinding params) (run before (new .standard))).state.preamble =
        (run before (new .standard)).preamble ++
          ("layout(set = 0, binding = 2, std140) uniform _BUFFER1_ \x7b\n" ++
            "\tLight_t _data_;\n\x7d params[512];\n\n") ∧
      (step (.declareUniform scene)
        (run (before ++ [.declareBinding params]) (new .standard))).result.isOk = true ∧
      (g.blocks.map Identifier.text).Nodup := by
  intro light data lights linear params scene before commands g
  have hcalls : Action.accepted step commands (new .standard) = [.declareBinding lights,
      .declareBinding linear, .declareBinding params, .declareUniform scene] := by
    unfold commands before data lights linear params scene light
    rfl
  have hbefore : (Action.accepted step before (new .standard)).countP Command.isBlock = 1 := by
    unfold before data lights linear light
    rfl
  have hcount : (Action.accepted step commands (new .standard)).countP Command.isBlock = 2 := by
    rw [hcalls]
    rfl
  have hfew : 2 < UInt32.size := by decide
  have htext : "layout(set = 0, binding = 2, " ++ "std140" ++ ") " ++ "uniform" ++ " _BUFFER" ++
      toString 1 ++ "_ \x7b\n\t" ++ structToken "Light" ++ " _data_" ++ "" ++ ";\n\x7d " ++
      "params" ++ "[" ++ toString TableSizes.standard.buffers ++ "];\n\n" =
      "layout(set = 0, binding = 2, std140) uniform _BUFFER1_ \x7b\n" ++
        "\tLight_t _data_;\n\x7d params[512];\n\n" := by
    decide
  obtain ⟨hblocks, ⟨hnext, -⟩, huniform, -, -, -, -, hnames⟩ :=
    blocks_numbered .standard commands (by rw [hcount]; exact hfew)
  refine ⟨hcount, hfew, hnext.trans hcount, ?_, ?_, hnames.mpr (by rw [hcalls]; decide)⟩
  · obtain ⟨⟨kind, s, htype, hpreamble⟩, -⟩ :=
      hblocks before params [.declareUniform scene] rfl rfl
        (by unfold before params data lights linear light; rfl)
    unfold params light at htype
    cases htype
    rw [hpreamble, hbefore, ← htext, if_pos rfl, if_pos rfl]
    rfl
  · have hsplit : commands =
        (before ++ [.declareBinding params]) ++ .declareUniform scene :: [] := by
      rw [List.append_assoc]
      rfl
    refine (huniform _ scene [] hsplit).mpr ⟨⟨⟨"Light", []⟩, rfl⟩, ?_⟩
    intro w hw
    obtain rfl : w = data := by simpa [before] using hw
    rintro ⟨s, htype⟩
    cases htype

/-- Sub-indices that are declared twice make two blocks of one name. -/
theorem block_names_not_always_different :
    ¬ ∀ (sizes : TableSizes) (commands : List Command),
      (Action.accepted step commands (new sizes)).countP Command.isBlock < UInt32.size →
        ((run commands (new sizes)).blocks.map Identifier.text).Nodup := by
  intro h
  have hnodup := h .standard [.declareIndices 0, .declareIndices 0] (by decide)
  revert hnodup
  decide

end Emitter

end GlslEmit
