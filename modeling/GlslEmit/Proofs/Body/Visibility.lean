/-
# Where an unpacked sub-index is visible

A body reads a sub-index once and remembers it up to its end.  The variable that holds the sub-index
belongs to the innermost block around the line that reads it, and this block may be closed long
before the body ends.  So a repeated reading, which writes nothing, finds the variable visible or
not, and the indentation of the lines in between decides.

* `enclosingBlocks` are the blocks that are open behind some lines, and `WellNested` says that every
  line is indented by their number;
* `WellNested.still_open_iff`: the blocks around a line are still open if no later line is less
  deep;
* `Emitter.Transition.unpack_cases`: a reading writes the last line, or leaves no trace;
* `Emitter.unpacked_once`: the only line of a sub-index after every run, the reading that wrote it,
  and the exact condition for its block to be still open;
* `Emitter.unpacked_not_always_visible`: a block that was closed takes the variable with it.
-/
import Mathlib.Data.List.Basic
import GlslEmit.Proofs.Body.Origin

namespace GlslEmit

/-! ## Enclosing blocks -/

/-- What a line does to the blocks around it: an opener adds the block that begins at its place, and
a closing brace ends the innermost block. -/
def Line.nest (place : Nat) (blocks : List Nat) : Line → List Nat
  | opener _ => place :: blocks
  | close => blocks.tail
  | _ => blocks

/-- The blocks that are open behind some lines, which are given from the last one to the first. -/
def enclosingBlocksRev : List IndentedLine → List Nat
  | [] => []
  | l :: before => l.line.nest before.length (enclosingBlocksRev before)

/-- The blocks that are open behind some lines, innermost first.  A block is known by the place of
its opener. -/
def enclosingBlocks (lines : List IndentedLine) : List Nat := enclosingBlocksRev lines.reverse

/-- A line fits behind some blocks: a closing brace stands at the depth of the innermost opener, and
any other line is one deeper. -/
def IndentedLine.Fits (blocks : List Nat) (l : IndentedLine) : Prop :=
  if l.line = .close then blocks ≠ [] ∧ l.depth = blocks.length else l.depth = blocks.length + 1

/-- Every line fits the blocks around it. -/
def WellNested (lines : List IndentedLine) : Prop :=
  ∀ before l after, lines = before ++ l :: after → l.Fits (enclosingBlocks before)

section Lines

variable {lines : List IndentedLine} {l : IndentedLine}

/-- A line that is no closing brace leaves the enclosing blocks open. -/
theorem suffix_nest {line : Line} (h : line ≠ .close) (place : Nat) (blocks : List Nat) :
    blocks <:+ line.nest place blocks := by
  cases line with
  | opener o => exact List.suffix_cons _ _
  | close => exact absurd rfl h
  | _ => exact List.suffix_rfl

theorem mem_of_mem_nest {line : Line} {place p : Nat} {blocks : List Nat}
    (h : p ∈ line.nest place blocks) : p = place ∨ p ∈ blocks := by
  cases line with
  | opener o => exact List.mem_cons.mp h
  | close => exact Or.inr (List.mem_of_mem_tail h)
  | _ => exact Or.inr h

theorem enclosingBlocks_snoc (lines : List IndentedLine) (l : IndentedLine) :
    enclosingBlocks (lines ++ [l]) = l.line.nest lines.length (enclosingBlocks lines) := by
  simp [enclosingBlocks, enclosingBlocksRev]

/-- A block begins before the place that it encloses. -/
theorem lt_of_mem_enclosingBlocks {p : Nat} (h : p ∈ enclosingBlocks lines) : p < lines.length := by
  induction lines using List.reverseRecOn generalizing p with
  | nil => cases h
  | append_singleton lines l ih =>
    rw [enclosingBlocks_snoc] at h
    rw [List.length_append, List.length_singleton]
    rcases mem_of_mem_nest h with rfl | hmem
    · omega
    · have := ih hmem
      omega

/-- An inner block begins behind the blocks around it. -/
theorem enclosingBlocks_pairwise (lines : List IndentedLine) :
    (enclosingBlocks lines).Pairwise (· > ·) := by
  induction lines using List.reverseRecOn with
  | nil => exact List.Pairwise.nil
  | append_singleton lines l ih =>
    rw [enclosingBlocks_snoc]
    cases l.line with
    | opener o => exact List.pairwise_cons.mpr ⟨fun p hp => lt_of_mem_enclosingBlocks hp, ih⟩
    | close => exact ih.sublist (List.tail_sublist _)
    | _ => exact ih

theorem wellNested_nil : WellNested [] := forall_split_nil

theorem wellNested_snoc_iff :
    WellNested (lines ++ [l]) ↔ WellNested lines ∧ l.Fits (enclosingBlocks lines) :=
  forall_split_snoc_iff

/-! ## Blocks that stay open -/

variable {pre tail : List IndentedLine}

/-- As long as all lines are deeper than some blocks, these blocks stay open. -/
theorem suffix_of_deep (hnest : WellNested (pre ++ tail))
    (hdeep : ∀ l ∈ tail, (enclosingBlocks pre).length < l.depth) :
    enclosingBlocks pre <:+ enclosingBlocks (pre ++ tail) := by
  induction tail using List.reverseRecOn with
  | nil => exact (List.append_nil pre).symm ▸ List.suffix_rfl
  | append_singleton tail l ih =>
    rw [← List.append_assoc] at hnest ⊢
    obtain ⟨hbefore, hfits⟩ := wellNested_snoc_iff.mp hnest
    have hsuffix := ih hbefore fun m hm => hdeep m (List.mem_append_left _ hm)
    have hl := hdeep l (List.mem_append_right _ (List.mem_singleton.mpr rfl))
    rw [enclosingBlocks_snoc]
    by_cases hclose : l.line = .close
    · -- the brace closes a block that was opened later
      rw [IndentedLine.Fits, if_pos hclose] at hfits
      rw [hclose]
      rcases List.suffix_cons_iff.mp (List.cons_head_tail hfits.1 ▸ hsuffix) with heq | htail
      · have hlength := congrArg List.length heq
        rw [List.cons_head_tail] at hlength
        omega
      · exact htail
    · exact hsuffix.trans (suffix_nest hclose _ _)

/-- A line that is not deeper than some blocks closes the innermost of them for good. -/
theorem lost_of_shallow (hnest : WellNested (pre ++ tail))
    (hshallow : ∃ l ∈ tail, l.depth ≤ (enclosingBlocks pre).length) :
    ∃ p ∈ enclosingBlocks pre, p ∉ enclosingBlocks (pre ++ tail) := by
  induction tail using List.reverseRecOn with
  | nil =>
    obtain ⟨l, hl, -⟩ := hshallow
    cases hl
  | append_singleton tail l ih =>
    rw [← List.append_assoc] at hnest ⊢
    obtain ⟨hbefore, hfits⟩ := wellNested_snoc_iff.mp hnest
    rw [enclosingBlocks_snoc]
    by_cases hearlier : ∃ m ∈ tail, m.depth ≤ (enclosingBlocks pre).length
    · obtain ⟨p, hp, hlost⟩ := ih hbefore hearlier
      refine ⟨p, hp, fun hmem => ?_⟩
      rcases mem_of_mem_nest hmem with hplace | hmem'
      · -- a new block begins at a place of its own
        have hlt := lt_of_mem_enclosingBlocks hp
        rw [hplace, List.length_append] at hlt
        omega
      · exact hlost hmem'
    · have hdeep (m : IndentedLine) (hm : m ∈ tail) : (enclosingBlocks pre).length < m.depth :=
        Nat.lt_of_not_le fun hle => hearlier ⟨m, hm, hle⟩
      have hsuffix := suffix_of_deep hbefore hdeep
      have hl : l.depth ≤ (enclosingBlocks pre).length := by
        obtain ⟨m, hm, hdepth⟩ := hshallow
        rcases List.mem_append.mp hm with hmem | hmem
        · exact absurd (hdeep m hmem) (Nat.not_lt.mpr hdepth)
        · rw [← List.mem_singleton.mp hmem]
          exact hdepth
      have hlength := hsuffix.length_le
      by_cases hclose : l.line = .close
      · rw [IndentedLine.Fits, if_pos hclose] at hfits
        have heq : enclosingBlocks pre = enclosingBlocks (pre ++ tail) :=
          hsuffix.eq_of_length_le (by omega)
        rw [hclose, heq]
        have hpairwise := enclosingBlocks_pairwise (pre ++ tail)
        cases hblocks : enclosingBlocks (pre ++ tail) with
        | nil => exact absurd hblocks hfits.1
        | cons p blocks =>
          rw [hblocks] at hpairwise
          refine ⟨p, List.mem_cons_self, fun hmem => ?_⟩
          exact Nat.lt_irrefl p ((List.pairwise_cons.mp hpairwise).1 p hmem)
      · rw [IndentedLine.Fits, if_neg hclose] at hfits
        omega

/-- The blocks around a line that is no brace are still open exactly if no later line is less
deep. -/
theorem WellNested.still_open_iff {before after : List IndentedLine} {depth : Nat} {index : UInt32}
    (hnest : WellNested (before ++ ⟨depth, .unpack index⟩ :: after)) :
    (∀ p ∈ enclosingBlocks before,
        p ∈ enclosingBlocks (before ++ ⟨depth, .unpack index⟩ :: after)) ↔
      ∀ l ∈ after, depth ≤ l.depth := by
  have hfits : depth = (enclosingBlocks before).length + 1 := hnest before _ after rfl
  have hsame : enclosingBlocks (before ++ [⟨depth, .unpack index⟩]) = enclosingBlocks before :=
    enclosingBlocks_snoc before _
  rw [List.append_cons] at hnest ⊢
  rw [← hsame] at hfits ⊢
  constructor
  · intro hopen l hl
    by_contra hshallow
    obtain ⟨p, hp, hlost⟩ := lost_of_shallow hnest ⟨l, hl, by omega⟩
    exact hlost (hopen p hp)
  · intro hdeep p hp
    refine (suffix_of_deep hnest fun l hl => ?_).subset hp
    have := hdeep l hl
    omega

end Lines

/-! ## What an emitter knows about its body -/

/-- A plain statement writes a line that is no brace and reads no sub-index. -/
theorem Statement.line_of_plain {statement : Statement} {line : Line}
    (plain : statement.isPlain = true) (form : statement.line = .ok line) :
    (∀ place blocks, line.nest place blocks = blocks) ∧ line ≠ .close ∧
      ∀ index, line ≠ .unpack index := by
  cases statement with
  | declare v =>
    rw [Statement.line] at form
    split at form <;> cases form
    exact ⟨fun _ _ => rfl, Line.noConfusion, fun _ => Line.noConfusion⟩
  | assign left operator right =>
    cases form
    exact ⟨fun _ _ => rfl, Line.noConfusion, fun _ => Line.noConfusion⟩
  | store template value =>
    rw [Statement.line] at form
    split at form <;> cases form
    exact ⟨fun _ _ => rfl, Line.noConfusion, fun _ => Line.noConfusion⟩
  | unpack index => cases plain
  | openBlock o => cases plain
  | closeBlock => cases plain

/-- The depth of a body and its unpacked sub-indices agree with its lines. -/
structure Body.Tracked (b : Body) (depth : Nat) (mask : IndexMask) : Prop where
  nested : WellNested b.lines
  depth_eq : depth = (enclosingBlocks b.lines).length + 1
  unpacked : ∀ index, b.lines.countP (fun l => l.line = .unpack index) =
    if mask.contains index then 1 else 0

namespace Body.Tracked

variable {b : Body} {depth : Nat} {mask : IndexMask}

theorem fresh : Body.fresh.Tracked 1 .empty where
  nested := wellNested_nil
  depth_eq := rfl
  unpacked index := by rw [IndexMask.contains_empty]; rfl

/-- A line that is no closing brace fits at the current depth. -/
theorem nested_write (h : b.Tracked depth mask) {line : Line} (hclose : line ≠ .close) :
    WellNested (b.write depth line).lines := by
  refine wellNested_snoc_iff.mpr ⟨h.nested, ?_⟩
  rw [IndentedLine.Fits, if_neg hclose]
  exact h.depth_eq

/-- A line that reads no sub-index leaves the count of such lines as it is. -/
theorem unpacked_write (h : b.Tracked depth mask) (depth' : Nat) {line : Line}
    (hunpack : ∀ index, line ≠ .unpack index) (index : UInt32) :
    (b.write depth' line).lines.countP (fun l => l.line = .unpack index) =
      if mask.contains index then 1 else 0 := by
  rw [Body.write, List.countP_append, h.unpacked]
  simp [hunpack index]

theorem write_plain (h : b.Tracked depth mask) {statement : Statement} {line : Line}
    (plain : statement.isPlain = true) (form : statement.line = .ok line) :
    (b.write depth line).Tracked depth mask := by
  obtain ⟨hnest, hclose, hunpack⟩ := Statement.line_of_plain plain form
  refine ⟨h.nested_write hclose, ?_, h.unpacked_write depth hunpack⟩
  rw [Body.write, enclosingBlocks_snoc, hnest]
  exact h.depth_eq

theorem write_unpack (h : b.Tracked depth mask) {index : UInt32} (small : index < maxSubIndices)
    (fresh : ¬ mask.contains index = true) :
    (b.write depth (.unpack index)).Tracked depth (mask.insert index).2 := by
  have hclose : Line.unpack index ≠ .close := fun heq => by cases heq
  refine ⟨h.nested_write hclose, ?_, fun other => ?_⟩
  · rw [Body.write, enclosingBlocks_snoc]
    exact h.depth_eq
  · rw [Body.write, List.countP_append, h.unpacked, List.countP_singleton]
    by_cases hother : index = other
    · subst hother
      rw [if_neg fresh, if_pos (decide_eq_true rfl),
        if_pos ((IndexMask.contains_insert_iff small).mpr (Or.inl rfl))]
    · have hkept : (mask.insert index).2.contains other = true ↔ mask.contains other = true := by
        rw [IndexMask.contains_insert_iff small]
        exact or_iff_right hother
      have hline : ¬ decide (Line.unpack index = .unpack other) = true := by
        intro hsame
        cases of_decide_eq_true hsame
        exact hother rfl
      rw [if_neg hline, Nat.add_zero]
      simp only [hkept]

theorem write_opener (h : b.Tracked depth mask) (o : Opener) :
    (b.write depth (.opener o)).Tracked (depth + 1) mask := by
  have hclose : Line.opener o ≠ .close := fun heq => by cases heq
  have hunpack (index : UInt32) : Line.opener o ≠ .unpack index := fun heq => by cases heq
  refine ⟨h.nested_write hclose, ?_, h.unpacked_write depth hunpack⟩
  rw [Body.write, enclosingBlocks_snoc, Line.nest, List.length_cons, ← h.depth_eq]

theorem write_close (h : b.Tracked depth mask) (hdepth : depth > 1) :
    (b.write (depth - 1) .close).Tracked (depth - 1) mask := by
  have hdepth_eq := h.depth_eq
  have hunpack (index : UInt32) : Line.close ≠ .unpack index := fun heq => by cases heq
  refine ⟨wellNested_snoc_iff.mpr ⟨h.nested, ?_⟩, ?_, h.unpacked_write _ hunpack⟩
  · rw [IndentedLine.Fits, if_pos rfl]
    constructor
    · intro hnil
      rw [hnil, List.length_nil] at hdepth_eq
      omega
    · show depth - 1 = _
      omega
  · rw [Body.write, enclosingBlocks_snoc, Line.nest, List.length_tail]
    omega

end Body.Tracked

namespace Emitter

variable {g g' : Emitter}

/-- The emitter's depth and sub-indices agree with the lines of the active body. -/
def Tracks (g : Emitter) : Prop :=
  ∀ s b, g.openBody? = some (s, b) → b.Tracked g.depth g.unpacked

theorem tracks_new (sizes : TableSizes) : (new sizes).Tracks := by
  intro s b hb
  cases hb

/-- Every transition keeps the agreement. -/
theorem Transition.tracks {c : Command} (hg : g.Tracks) (h : Transition g c g') : g'.Tracks := by
  by_cases hregion : c.region = .bodies
  · intro s b hb
    cases h with
    | beginStage idle =>
      cases hb.symm.trans openBody?_opened
      exact .fresh
    | endStage body flat => cases hb
    | writeStatement plain form body =>
      cases hb.symm.trans (openBody?_of_setBody body rfl rfl)
      exact (hg _ _ body).write_plain plain form
    | unpackFirst small fresh body =>
      cases hb.symm.trans (openBody?_of_setBody body rfl rfl)
      exact (hg _ _ body).write_unpack small fresh
    | unpackAgain small known body => exact hg s b hb
    | enterBlock body =>
      cases hb.symm.trans (openBody?_of_setBody body rfl rfl)
      exact (hg _ _ body).write_opener _
    | leaveBlock body nested =>
      cases hb.symm.trans (openBody?_of_setBody body rfl rfl)
      exact (hg _ _ body).write_close nested
    | _ => cases hregion
  · have hsame := h.sameBodies hregion
    intro s b hb
    rw [openBody?_eq_some_iff, hsame.active, hsame.body, ← openBody?_eq_some_iff] at hb
    rw [hsame.depth, hsame.unpacked]
    exact hg s b hb

theorem Reachable.tracks (hg : g.Reachable) : g.Tracks := by
  obtain ⟨sizes, commands, rfl⟩ := hg
  have hchain := chain_run (wellFormed_new sizes) commands
  exact hchain.keeps (fun hg hT => Transition.tracks hg hT) (tracks_new sizes)

/-- The only line of its kind splits a list. -/
theorem exists_split_of_countP {lines : List IndentedLine} {line : Line}
    (h : lines.countP (fun l => l.line = line) = 1) :
    ∃ before depth after, lines = before ++ ⟨depth, line⟩ :: after ∧
      ∀ l ∈ before ++ after, l.line ≠ line := by
  have hpositive : 0 < lines.countP (fun l => l.line = line) := by omega
  obtain ⟨l, hl, hline⟩ := List.countP_pos_iff.mp hpositive
  obtain ⟨before, after, rfl⟩ := List.append_of_mem hl
  obtain ⟨depth, line'⟩ := l
  obtain rfl : line' = line := of_decide_eq_true hline
  refine ⟨before, depth, after, rfl, fun m hm => ?_⟩
  rw [List.countP_append, List.countP_cons, if_pos hline] at h
  have hzero : (before ++ after).countP (fun l => l.line = line') = 0 := by
    rw [List.countP_append]
    omega
  have := List.countP_eq_zero.mp hzero m hm
  simpa using this

/-- A sub-index that is remembered is read again without a trace. -/
theorem unpack_of_known {index : UInt32} (known : g.unpacked.contains index = true) {s : Stage}
    {b : Body} (body : g.openBody? = some (s, b)) :
    step (.perform (.unpack index)) g = .accepted g .done [] := by
  have hsmall := (IndexMask.contains_eq_true_iff.mp known).1
  exact Action.bind_accepted (unpackAgain_accepted hsmall known body) rfl

/-- After an accepted reading the sub-index is remembered.  If it was not before, the reading writes
the last line of the active body, and if it was, the reading leaves no trace. -/
theorem Transition.unpack_cases {index : UInt32} (h : Transition g (.perform (.unpack index)) g') :
    ∃ s b, g'.openBody? = some (s, b) ∧ g'.unpacked.contains index = true ∧
      (g.unpacked.contains index = false →
        ∃ b₀, g.openBody? = some (s, b₀) ∧ b = b₀.write g.depth (.unpack index)) ∧
      (g.unpacked.contains index = true →
        step (.perform (.unpack index)) g = .accepted g .done []) := by
  cases h with
  | writeStatement plain form body => cases plain
  | @unpackFirst _ s b small fresh body =>
    refine ⟨s, _, openBody?_of_setBody body rfl rfl, ?_, fun _ => ⟨b, body, rfl⟩,
      fun hknown => absurd hknown fresh⟩
    exact (IndexMask.contains_insert_iff small).mpr (Or.inl rfl)
  | @unpackAgain _ s b small known body =>
    refine ⟨s, b, body, known, fun hfresh => ?_, fun _ => unpack_of_known known body⟩
    rw [known] at hfresh
    cases hfresh

/-- **A sub-index is read by one line, which may be out of sight.**  After an accepted reading,
whether it wrote a line or not, the active body holds exactly one line that declares the local
variable of the sub-index.  A reading wrote this line since the beginning of the stage, when the
lines before it were the whole body.  The blocks that were open then are all still open exactly if
no later line is less deep.  If the sub-index was not remembered, the reading itself wrote the line,
and it is the last one; if it was, the reading writes nothing and changes nothing. -/
theorem unpacked_once (sizes : TableSizes) (commands : List Command) (index : UInt32)
    (h : (step (.perform (.unpack index)) (run commands (new sizes))).result.isOk = true) :
    let g := run commands (new sizes)
    let g' := (step (.perform (.unpack index)) g).state
    ∃ s b before depth after, g'.openBody? = some (s, b) ∧
      b.lines = before ++ ⟨depth, .unpack index⟩ :: after ∧
      IndentedLine.text ⟨depth, .unpack index⟩ =
        indentation depth ++ "uint _bidx" ++ toString index ++ "_ = " ++
          (SubIndexPlace.of index).text ++ ";\n" ∧
      (∀ l ∈ before ++ after, l.line ≠ .unpack index) ∧
      (∃ earlier later,
        commands ++ [.perform (.unpack index)] = earlier ++ .perform (.unpack index) :: later ∧
          WrittenBy sizes earlier (.unpack index) later s before ⟨depth, .unpack index⟩ ∧
          (enclosingBlocks before).length = (run earlier (new sizes)).openBlocks) ∧
      (enclosingBlocks b.lines).length = g'.openBlocks ∧
      ((∀ p ∈ enclosingBlocks before, p ∈ enclosingBlocks b.lines) ↔
        ∀ l ∈ after, depth ≤ l.depth) ∧
      (g.unpacked.contains index = false →
        after = [] ∧ ∃ b₀, g.openBody? = some (s, b₀) ∧ b = b₀.write g.depth (.unpack index)) ∧
      (g.unpacked.contains index = true →
        step (.perform (.unpack index)) g = .accepted g .done []) := by
  intro g g'
  have hg : g.Reachable := ⟨sizes, commands, rfl⟩
  have hT : Transition g (.perform (.unpack index)) g' :=
    (step_settles _ g hg.wellFormed).of_isOk h
  obtain ⟨s, b, hbody, hknown, hfirst, hagain⟩ := hT.unpack_cases
  have htracked := hT.tracks hg.tracks s b hbody
  have hcount := htracked.unpacked index
  rw [if_pos hknown] at hcount
  obtain ⟨before, depth, after, hsplit, hothers⟩ := exists_split_of_countP hcount
  have hnested := htracked.nested
  rw [hsplit] at hnested
  refine ⟨s, b, before, depth, after, hbody, hsplit, IndentedLine.text_unpack depth index, hothers,
    ?_, ?_, ?_, fun hfresh => ?_, hagain⟩
  · have hrun : (run (commands ++ [.perform (.unpack index)]) (new sizes)).openBody? =
        some (s, b) := by
      rw [run_append_cons]
      exact hbody
    obtain ⟨earlier, statement, later, hcalls, hline, hwritten⟩ :=
      exists_writtenBy hrun before _ after hsplit
    obtain rfl := unpack_of_line hline
    obtain ⟨b₀, hb₀, hlines, -⟩ := hwritten.body
    have hthen : (run earlier (new sizes)).Reachable := ⟨sizes, earlier, rfl⟩
    refine ⟨earlier, later, hcalls, hwritten, ?_⟩
    rw [openBlocks, (hthen.tracks s b₀ hb₀).depth_eq, Nat.add_sub_cancel, hlines]
  · rw [openBlocks, htracked.depth_eq, Nat.add_sub_cancel]
  · rw [hsplit]
    exact hnested.still_open_iff
  · -- the last line reads the sub-index, and only one line does
    obtain ⟨b₀, hb₀, rfl⟩ := hfirst hfresh
    have hbefore : (⟨g.depth, .unpack index⟩ : IndentedLine) ∉ before := fun hmem =>
      hothers _ (List.mem_append_left _ hmem) rfl
    have hafter : (⟨g.depth, .unpack index⟩ : IndentedLine) ∉ after := fun hmem =>
      hothers _ (List.mem_append_right _ hmem) rfl
    obtain ⟨-, -, hnil⟩ := (List.append_cons_inj_of_notMem hbefore hafter).mp hsplit.symm
    exact ⟨hnil, b₀, hb₀, rfl⟩

/-- A sub-index that is read inside a block and again behind it.  The second reading writes nothing
and changes nothing, and the block that was open around the only line is closed then, since the line
of the brace is less deep. -/
theorem unpacked_once_behind_block :
    let earlier : List Command := [.beginStage .vertex, .perform (.openBlock (.ifThen "c"))]
    let later : List Command := [.perform .closeBlock, .perform (.unpack 3)]
    let g := run (earlier ++ [.perform (.unpack 3), .perform .closeBlock]) (new .standard)
    let before : List IndentedLine := [⟨1, .opener (.ifThen "c")⟩]
    let lines : List IndentedLine := before ++ [⟨2, .unpack 3⟩, ⟨1, .close⟩]
    (step (.perform (.unpack 3)) g).result.isOk = true ∧
      joinTexts (lines.map IndentedLine.text) =
        "\tif (c) \x7b\n\t\tuint _bidx3_ = (_bidx_.index1 >> 16);\n\t\x7d\n" ∧
      WrittenBy .standard earlier (.unpack 3) later .vertex before ⟨2, .unpack 3⟩ ∧
      g.openBody? = some (.vertex, ⟨lines, false⟩) ∧
      g.unpacked.contains 3 = true ∧
      step (.perform (.unpack 3)) g = .accepted g .done [] ∧
      enclosingBlocks before = [0] ∧ enclosingBlocks lines = [] ∧
      ((∀ p ∈ enclosingBlocks before, p ∈ enclosingBlocks lines) ↔
        ∀ l ∈ [(⟨1, .close⟩ : IndentedLine)], 2 ≤ l.depth) ∧
      ¬ ∀ p ∈ enclosingBlocks before, p ∈ enclosingBlocks lines := by
  intro earlier later g before lines
  have hok : (step (.perform (.unpack 3)) g).result.isOk = true := by decide
  have hwritten : WrittenBy .standard earlier (.unpack 3) later .vertex before ⟨2, .unpack 3⟩ := by
    unfold earlier later before
    refine ⟨⟨⟨[⟨1, .opener (.ifThen "c")⟩], false⟩, rfl, rfl, rfl⟩, ?_⟩
    change ∀ c ∈ [Command.perform .closeBlock, Command.perform (.unpack 3)], _
    simp
  have hbody : g.openBody? = some (.vertex, ⟨lines, false⟩) := rfl
  have hknown : g.unpacked.contains 3 = true := by
    unfold g earlier
    rfl
  obtain ⟨s, b, front, depth, rest, hbody', hsplit, -, -, -, -, hopen, -, hagain⟩ :=
    unpacked_once .standard _ 3 hok
  have hstep : step (.perform (.unpack 3)) g = .accepted g .done [] := hagain hknown
  -- the second reading leaves the three lines, and the middle one reads the sub-index
  rw [hstep] at hbody'
  cases hbody.symm.trans hbody'
  obtain ⟨rfl, hl, rfl⟩ : before = front ∧ (⟨2, .unpack 3⟩ : IndentedLine) = ⟨depth, .unpack 3⟩ ∧
      [(⟨1, .close⟩ : IndentedLine)] = rest :=
    (List.append_cons_inj_of_notMem (by simp [before]) (by simp)).mp hsplit
  cases hl
  refine ⟨hok, by decide, hwritten, hbody, hknown, hstep, rfl, rfl, hopen, fun hvisible => ?_⟩
  exact absurd (hopen.mp hvisible ⟨1, .close⟩ (by simp)) (by decide)

/-- It is not true that the blocks around the reading line are always open when the sub-index is
asked for again: a closed block takes the variable with it. -/
theorem unpacked_not_always_visible :
    ¬ ∀ g : Emitter, g.Reachable → ∀ index,
      (step (.perform (.unpack index)) g).result.isOk = true → ∀ s b,
        (step (.perform (.unpack index)) g).state.openBody? = some (s, b) →
        ∃ before depth after, b.lines = before ++ ⟨depth, .unpack index⟩ :: after ∧
          ∀ p ∈ enclosingBlocks before, p ∈ enclosingBlocks b.lines := by
  intro hvisible
  have hreachable : (run [.beginStage .vertex, .perform (.openBlock (.ifThen "c")),
      .perform (.unpack 3), .perform .closeBlock] (new .standard)).Reachable :=
    ⟨.standard, _, rfl⟩
  obtain ⟨before, depth, after, hsplit, hopen⟩ :=
    hvisible _ hreachable 3 rfl .vertex
      ⟨[⟨1, .opener (.ifThen "c")⟩, ⟨2, .unpack 3⟩, ⟨1, .close⟩], false⟩ rfl
  -- the reading line is the second one, behind the opener
  have hfront : [(⟨1, .opener (.ifThen "c")⟩ : IndentedLine)] = before :=
    ((List.append_cons_inj_of_notMem (by simp) (by simp)).mp hsplit).1
  subst hfront
  have hmem := hopen 0 (List.mem_singleton.mpr rfl)
  cases hmem

end Emitter

end GlslEmit
