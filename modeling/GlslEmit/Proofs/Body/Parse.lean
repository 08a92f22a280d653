/-
# Bodies are walks of block trees

An emitter knows no tree: it counts the open blocks and remembers which sub-indices were read.
Still every tree can be walked, and what is accepted between the beginning and the end of a stage is
the walk of a tree.  The second fact is found while the body grows: at each moment the accepted
statements are what stands before the open blocks, outermost first, with their openers, and then the
trees inside the innermost one; the depth counts these blocks.

* `Emitter.walk_chain`: the walk of a tree is accepted and leads back to the same depth;
* `Emitter.written_of_chain`: what was accepted since the beginning, with the blocks still open;
* `Emitter.body_is_block_tree`: both directions, with the text of the body.
-/
import GlslEmit.Proofs.Body.Tree
import GlslEmit.Proofs.Emitter.Rendering

namespace GlslEmit

namespace Emitter

/-! ## Walking a tree -/

section Walk

variable {g : Emitter} {s : Stage}

/-- A leaf is accepted while a stage is active, and keeps the depth. -/
theorem leaf_transition (hg : g.WellFormed) (hs : g.active = some s) {statement : Statement}
    (isLeaf : statement.IsLeaf) :
    ∃ g', Transition g (.perform statement) g' ∧ g'.active = some s ∧ g'.depth = g.depth := by
  obtain ⟨b, hbody⟩ := hg.openBody_of_active hs
  obtain ⟨line, hline⟩ := isLeaf.line
  cases statement with
  | unpack index =>
    by_cases hknown : g.unpacked.contains index = true
    · exact ⟨g, .unpackAgain isLeaf hknown hbody, hs, rfl⟩
    · exact ⟨_, .unpackFirst isLeaf hknown hbody, hs, rfl⟩
  | openBlock o => exact isLeaf.elim
  | closeBlock => exact isLeaf.elim
  | _ => exact ⟨_, .writeStatement rfl hline hbody, hs, rfl⟩

/-- The walk of a tree is accepted while a stage is active, and leads back to the same depth. -/
theorem walk_chain (f : BlockTree) (hg : g.WellFormed) (hs : g.active = some s) :
    ∃ g', Chain Transition g (f.walk.map .perform) g' ∧ g'.active = some s ∧
      g'.depth = g.depth := by
  induction f generalizing g with
  | nil => exact ⟨g, .refl, hs, rfl⟩
  | leaf statement isLeaf rest ih =>
    obtain ⟨g₁, hleaf, hs₁, hdepth₁⟩ := leaf_transition hg hs isLeaf
    obtain ⟨g₂, hrest, hs₂, hdepth₂⟩ := ih (hleaf.wellFormed hg) hs₁
    exact ⟨g₂, (Chain.single hleaf).trans hrest, hs₂, hdepth₂.trans hdepth₁⟩
  | block o inner rest ihinner ihrest =>
    obtain ⟨b, hb⟩ := hg.openBody_of_active hs
    have henter : Transition g (.perform (.openBlock o)) _ := .enterBlock hb
    obtain ⟨g₁, hinner, hs₁, hdepth₁⟩ := ihinner (henter.wellFormed hg) hs
    have hchain := (Chain.single henter).trans hinner
    have hg₁ := wellFormed_of_chain hchain hg
    obtain ⟨b₁, hb₁⟩ := hg₁.openBody_of_active hs₁
    -- inside the block the depth is one more than before, so the block can be closed
    have hnested : g₁.depth > 1 := by
      have hpositive := hg.depth hs
      have hone : g₁.depth = g.depth + 1 := hdepth₁
      omega
    have hleave : Transition g₁ (.perform .closeBlock) _ := .leaveBlock hb₁ hnested
    obtain ⟨g₂, hrest, hs₂, hdepth₂⟩ := ihrest (hleave.wellFormed hg₁) hs₁
    refine ⟨g₂, ?_, hs₂, ?_⟩
    · have hall := hchain.trans ((Chain.single hleave).trans hrest)
      simpa [BlockTree.walk] using hall
    · rw [hdepth₂]
      exact congrArg (· - 1) hdepth₁

/-- A stage is begun, a tree is walked and the stage is ended. -/
theorem activation_chain (f : BlockTree) (hg : g.WellFormed) (hidle : g.active = none) (s : Stage) :
    ∃ g', Chain Transition g (.beginStage s :: (f.walk.map .perform ++ [.endStage])) g' := by
  have hbegin : Transition g (.beginStage s) (g.opened s) := .beginStage hidle
  obtain ⟨g₁, hwalk, hs₁, hdepth₁⟩ := walk_chain f (hbegin.wellFormed hg) (s := s) rfl
  have hchain := (Chain.single hbegin).trans hwalk
  obtain ⟨b₁, hb₁⟩ := (wellFormed_of_chain hchain hg).openBody_of_active hs₁
  have hflat : ¬ g₁.depth > 1 := by
    rw [hdepth₁]
    exact Nat.lt_irrefl 1
  exact ⟨_, hchain.snoc (.endStage hb₁ hflat)⟩

end Walk

/-- The statements behind the beginning of a stage are its last activation. -/
theorem lastActivation_performs (s : Stage) (history : List Command) (statements : List Statement) :
    hasBegun s (history ++ .beginStage s :: statements.map .perform) = true ∧
      hasEnded s (history ++ .beginStage s :: statements.map .perform) = false ∧
      lastActivation s (history ++ .beginStage s :: statements.map .perform) = statements := by
  have hbegins : (Command.beginStage s).begins s = true := decide_eq_true rfl
  induction statements using List.reverseRecOn with
  | nil =>
    rw [List.map_nil, hasBegun_snoc, hasEnded_snoc, lastActivation_snoc, hbegins]
    exact ⟨Bool.or_true _, rfl, rfl⟩
  | append_singleton statements statement ih =>
    obtain ⟨hbegun, hended, hlast⟩ := ih
    have hsnoc : history ++ .beginStage s :: (statements ++ [statement]).map .perform =
        (history ++ .beginStage s :: statements.map .perform) ++ [.perform statement] := by
      simp
    rw [hsnoc, hasBegun_snoc, hasEnded_snoc, lastActivation_snoc, hbegun, hended, hlast]
    exact ⟨rfl, rfl, rfl⟩

end Emitter

/-! ## Open blocks -/

namespace BlockTree

/-- The statements up to a place inside open blocks.  For each of these blocks, innermost first,
there are the trees that stand before it and its opener; then come the trees inside the innermost
one. -/
def written : List (BlockTree × Opener) → BlockTree → List Statement
  | [], f => f.walk
  | (before, o) :: outer, f => written outer before ++ .openBlock o :: f.walk

variable (outer : List (BlockTree × Opener)) (f g before : BlockTree) (o : Opener)

theorem written_append : written outer (f.append g) = written outer f ++ g.walk := by
  cases outer with
  | nil => exact walk_append f g
  | cons block outer => simp [written, walk_append]

theorem written_leaf {statement : Statement} (isLeaf : statement.IsLeaf) :
    written outer (f.append (.leaf statement isLeaf .nil)) = written outer f ++ [statement] :=
  written_append outer f _

theorem written_opener : written ((f, o) :: outer) .nil = written outer f ++ [.openBlock o] := rfl

/-- A closing brace makes the innermost open block a tree of the block around it. -/
theorem written_close :
    written outer (before.append (.block o f .nil)) =
      written ((before, o) :: outer) f ++ [.closeBlock] := by
  rw [written_append, written]
  simp [walk]

end BlockTree

namespace Emitter

open BlockTree (written)

variable {g g' : Emitter} {s : Stage}

theorem perform_active {statement : Statement} (h : Transition g (.perform statement) g') :
    g'.active = g.active := by
  cases h <;> rfl

/-- An accepted statement extends what is written; the depth counts the open blocks. -/
theorem written_snoc {outer : List (BlockTree × Opener)} {f : BlockTree} {statement : Statement}
    (h : Transition g (.perform statement) g') (hdepth : g.depth = outer.length + 1) :
    ∃ outer' f', written outer' f' = written outer f ++ [statement] ∧
      g'.depth = outer'.length + 1 := by
  cases h with
  | writeStatement plain form body =>
    exact ⟨outer, _, BlockTree.written_leaf outer f (Statement.isLeaf_of_plain plain form), hdepth⟩
  | @unpackFirst index s b small fresh body =>
    have isLeaf : (Statement.unpack index).IsLeaf := small
    exact ⟨outer, _, BlockTree.written_leaf outer f isLeaf, hdepth⟩
  | @unpackAgain index s b small known body =>
    have isLeaf : (Statement.unpack index).IsLeaf := small
    exact ⟨outer, _, BlockTree.written_leaf outer f isLeaf, hdepth⟩
  | @enterBlock o s b body =>
    refine ⟨(f, o) :: outer, .nil, BlockTree.written_opener outer f o, ?_⟩
    rw [List.length_cons, ← hdepth]
  | leaveBlock body nested =>
    cases outer with
    | nil =>
      -- with no open block the depth is one, and there is nothing to close
      rw [hdepth] at nested
      exact absurd nested (Nat.lt_irrefl 1)
    | cons block outer =>
      obtain ⟨before, o⟩ := block
      refine ⟨outer, _, BlockTree.written_close outer f before o, ?_⟩
      show g.depth - 1 = outer.length + 1
      rw [hdepth, List.length_cons]
      omega

/-- What is accepted while a stage is active is written in some open blocks, as many as the depth
says. -/
theorem written_of_chain {calls : List Command} (h : Chain Transition g calls g')
    (hs : g.active = some s) (hdepth : g.depth = 1) (hend : .endStage ∉ calls) :
    g'.active = some s ∧ ∃ outer f,
      calls.filterMap Command.statement? = written outer f ∧ g'.depth = outer.length + 1 := by
  induction h with
  | refl => exact ⟨hs, [], .nil, rfl, hdepth⟩
  | @snoc calls c t u _ hT ih =>
    obtain ⟨hactive, outer, f, hwritten, hdepth'⟩ :=
      ih fun hmem => hend (List.mem_append_left _ hmem)
    rw [List.filterMap_append, hwritten]
    by_cases hregion : c.region = .bodies
    · cases c with
      | beginStage t =>
        -- the stage is still active, so no other one can begin
        cases hT with
        | beginStage idle =>
          rw [hactive] at idle
          cases idle
      | endStage => exact absurd (List.mem_append_right _ (List.mem_singleton.mpr rfl)) hend
      | perform statement =>
        obtain ⟨outer', f', hwritten', hdepth''⟩ := written_snoc (f := f) hT hdepth'
        exact ⟨(perform_active hT).trans hactive, outer', f', hwritten'.symm, hdepth''⟩
      | _ => cases hregion
    · have hsame := hT.sameBodies hregion
      have hstatement : c.statement? = none := by
        cases c with
        | perform statement => exact absurd rfl hregion
        | _ => rfl
      refine ⟨hsame.active.trans hactive, outer, f, ?_, hsame.depth.trans hdepth'⟩
      simp [hstatement]

theorem active_of_begin (h : Transition g (.beginStage s) g') :
    g'.active = some s ∧ g'.depth = 1 := by
  cases h
  exact ⟨rfl, rfl⟩

theorem flat_of_end (h : Transition g .endStage g') : ¬ g.depth > 1 := by
  cases h with
  | endStage body flat => exact flat

/-! ## Bodies and trees -/

/-- The body that a walked tree leaves behind. -/
theorem body_of_activation {sizes : TableSizes} {history : List Command} {f : BlockTree}
    (h : Reflects sizes
      (history ++ .beginStage s :: (f.walk.map .perform ++ [.endStage])) g') :
    (g'.outputs.get s).body.map Body.text =
      some ("void main()\n\x7b\n" ++ f.print [] 1 ++ "\x7d\n\n") := by
  have hsnoc : history ++ .beginStage s :: (f.walk.map .perform ++ [.endStage]) =
      (history ++ .beginStage s :: f.walk.map .perform) ++ [.endStage] := by
    simp
  obtain ⟨hbegun, hended, hlast⟩ := lastActivation_performs s history f.walk
  have hbody := h.bodies.body s
  rw [hsnoc, hasBegun_snoc, hasEnded_snoc, lastActivation_snoc, hbegun, hended, hlast] at hbody
  have hlines : (g'.outputs.get s).body =
      some ⟨contributions Statement.linesAfter f.walk, true⟩ := by
    simpa [Command.begins, Command.ends] using hbody
  have hprint := BlockTree.print_eq f [] Nat.one_pos
  rw [hlines, Option.map_some, Body.text]
  exact congrArg (fun text => some (entryOpen ++ text ++ entryClose)) hprint

/-- **Bodies are the walks of block trees.**  In every reachable state without an active stage, any
stage can be begun, any tree walked and the stage ended, and the body is the print of the tree.
Conversely, whatever calls come between an accepted beginning and the end that closes it, the
statements that are accepted among them are the walk of exactly one tree. -/
theorem body_is_block_tree :
    (∀ g : Emitter, g.Reachable → g.active = none → ∀ (s : Stage) (f : BlockTree),
      let calls := .beginStage s :: (f.walk.map .perform ++ [.endStage])
      Action.accepted step calls g = calls ∧
        ((run calls g).outputs.get s).body.map Body.text =
          some ("void main()\n\x7b\n" ++ f.print [] 1 ++ "\x7d\n\n")) ∧
    (∀ g : Emitter, g.Reachable → ∀ (s : Stage) (calls : List Command),
      let begun := (step (.beginStage s) g).state
      let accepted := Action.accepted step calls begun
      (step (.beginStage s) g).result.isOk = true → .endStage ∉ accepted →
        (step .endStage (run calls begun)).result.isOk = true →
        ∃! f : BlockTree, f.walk = accepted.filterMap Command.statement?) := by
  constructor
  · intro g hg hidle s f calls
    have hwellFormed := hg.wellFormed
    obtain ⟨sizes, commands, rfl⟩ := hg
    obtain ⟨g', hchain⟩ := activation_chain f hwellFormed hidle s
    obtain ⟨haccepted, hrun⟩ := hchain.accepted_eq fun hT => hT.step_accepted
    refine ⟨haccepted, ?_⟩
    -- the run that led here and the activation are one chain from a new emitter
    have hwhole := (chain_run (wellFormed_new sizes) commands).trans hchain
    have hbody := body_of_activation (reflects_of_chain hwhole)
    rw [← hrun] at hbody
    exact hbody
  · intro g hg s calls begun accepted hbegin hopen hend
    have hbegun := (step_settles (.beginStage s) g hg.wellFormed).of_isOk hbegin
    have hwellFormed : begun.WellFormed := hbegun.wellFormed hg.wellFormed
    obtain ⟨hactive, hone⟩ := active_of_begin hbegun
    obtain ⟨-, outer, f, hwritten, hdepth⟩ :=
      written_of_chain (chain_run hwellFormed calls) hactive hone hopen
    have hended := (step_settles .endStage _ (wellFormed_run hwellFormed calls)).of_isOk hend
    have hflat := flat_of_end hended
    -- the stage could end, so no block is left open
    have houter : outer = [] := by
      apply List.eq_nil_of_length_eq_zero
      omega
    subst houter
    refine ⟨f, hwritten.symm, fun f' hf' => BlockTree.walk_injective ?_⟩
    rw [hf']
    exact hwritten

/-- A block that reads a sub-index, which is then read again behind the block; and an end that is
refused inside a block and accepted behind it. -/
theorem body_is_block_tree_sample :
    let f : BlockTree :=
      .block (.ifThen "lit") (.leaf (.unpack 3) (show 3 < maxSubIndices by decide) .nil)
        (.leaf (.unpack 3) (show 3 < maxSubIndices by decide)
          (.leaf (.assign "color" "=" "shade") trivial .nil))
    let calls := .beginStage .vertex :: (f.walk.map .perform ++ [.endStage])
    let nested : List Command :=
      [.perform (.openBlock .otherwise), .endStage, .perform .closeBlock]
    (Action.accepted step calls (new .standard) = calls ∧
      ((run calls (new .standard)).outputs.get .vertex).body.map Body.text =
        some ("void main()\n\x7b\n\tif (lit) \x7b\n\t\tuint _bidx3_ = (_bidx_.index1 >> 16);\n" ++
          "\t\x7d\n\tcolor = shade;\n\x7d\n\n")) ∧
    ∃! f : BlockTree, f.walk = (Action.accepted step nested
      (step (.beginStage .vertex) (new .standard)).state).filterMap Command.statement? := by
  intro f calls nested
  have hnew : (new .standard).Reachable := ⟨.standard, [], rfl⟩
  obtain ⟨hwalk, hparse⟩ := body_is_block_tree
  have haccepted : Action.accepted step nested (step (.beginStage .vertex) (new .standard)).state =
      [.perform (.openBlock .otherwise), .perform .closeBlock] := rfl
  refine ⟨?_, hparse (new .standard) hnew .vertex nested rfl ?_ rfl⟩
  · obtain ⟨hcalls, htext⟩ := hwalk (new .standard) hnew rfl .vertex f
    refine ⟨hcalls, htext.trans ?_⟩
    decide +kernel
  · rw [haccepted]
    simp

end Emitter

end GlslEmit
