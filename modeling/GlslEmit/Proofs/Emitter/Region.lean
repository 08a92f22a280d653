/-
# Regions of a program text

A program text has three regions: the preamble that all stages share, the headers and the bodies.
Every command writes to one of them, and an accepted command leaves the two others alone, together
with the numbers, names and flags that belong to them.

* `Emitter.Command.region` is the region that a command writes to;
* `Transition.samePreamble`, `Transition.sameHeaders` and `Transition.sameBodies` say that nothing
  else changes;
* `Transition.of_idle`: without an active stage nothing is left of the depth and the mask;
* `active_of_chain`: a stage stays active from its beginning to the first accepted end.
-/
import GlslEmit.Proofs.Emitter.Transition

namespace GlslEmit

/-- The three regions of a program text. -/
inductive Region where
  | preamble
  | headers
  | bodies
  deriving DecidableEq

namespace Emitter

/-- The region that a command writes to. -/
def Command.region : Command → Region
  | beginStage _ => .bodies
  | endStage => .bodies
  | declareStruct _ => .preamble
  | declareUniform _ => .preamble
  | declareBinding _ => .preamble
  | declareIndices _ => .preamble
  | declareVertexInput _ => .headers
  | declareFragmentOutput _ => .headers
  | declareAttachment _ => .headers
  | declareVarying _ _ _ => .headers
  | perform _ => .bodies

/-- Two emitters agree on the preamble, its numbers and its names. -/
structure SamePreamble (g g' : Emitter) : Prop where
  sizes : g'.sizes = g.sizes
  declarations : g'.declarations = g.declarations
  nextBlock : g'.nextBlock = g.nextBlock
  tables : g'.tables = g.tables
  uniformDeclared : g'.uniformDeclared = g.uniformDeclared

/-- Two emitters agree on the headers and on the next location. -/
structure SameHeaders (g g' : Emitter) : Prop where
  header : ∀ s, (g'.outputs.get s).header = (g.outputs.get s).header
  nextLocation : g'.nextLocation = g.nextLocation

/-- Two emitters agree on the bodies, the active stage and what belongs to it. -/
structure SameBodies (g g' : Emitter) : Prop where
  body : ∀ s, (g'.outputs.get s).body = (g.outputs.get s).body
  active : g'.active = g.active
  depth : g'.depth = g.depth
  unpacked : g'.unpacked = g.unpacked

variable {g g' : Emitter} {c : Command}

/-- Only commands to the preamble change it. -/
theorem Transition.samePreamble (h : Transition g c g') (hc : c.region ≠ .preamble) :
    SamePreamble g g' := by
  cases h with
  | declareStruct form => exact absurd rfl hc
  | declareUniform first form => exact absurd rfl hc
  | declareBlock form => exact absurd rfl hc
  | declareTable form fresh => exact absurd rfl hc
  | shareTable form declared => exact absurd rfl hc
  | declareIndices small => exact absurd rfl hc
  | _ => exact ⟨rfl, rfl, rfl, rfl, rfl⟩

/-- Only interface declarations change the headers. -/
theorem Transition.sameHeaders (h : Transition g c g') (hc : c.region ≠ .headers) :
    SameHeaders g g' := by
  cases h with
  | declareVertexInput form => exact absurd rfl hc
  | declareFragmentOutput form => exact absurd rfl hc
  | declareAttachment form => exact absurd rfl hc
  | declareVarying order form => exact absurd rfl hc
  | beginStage idle => exact ⟨fun t => by simp [opened], rfl⟩
  | endStage body flat => exact ⟨fun t => by simp [ended], rfl⟩
  | writeStatement plain form body => exact ⟨fun t => by simp, rfl⟩
  | unpackFirst small fresh body => exact ⟨fun t => by simp, rfl⟩
  | enterBlock body => exact ⟨fun t => by simp, rfl⟩
  | leaveBlock body nested => exact ⟨fun t => by simp, rfl⟩
  | _ => exact ⟨fun _ => rfl, rfl⟩

/-- Only stage changes and statements change the bodies. -/
theorem Transition.sameBodies (h : Transition g c g') (hc : c.region ≠ .bodies) :
    SameBodies g g' := by
  cases h with
  | beginStage idle => exact absurd rfl hc
  | endStage body flat => exact absurd rfl hc
  | writeStatement plain form body => exact absurd rfl hc
  | unpackFirst small fresh body => exact absurd rfl hc
  | unpackAgain small known body => exact absurd rfl hc
  | enterBlock body => exact absurd rfl hc
  | leaveBlock body nested => exact absurd rfl hc
  | declareVertexInput form => exact ⟨fun t => by simp, rfl, rfl, rfl⟩
  | declareFragmentOutput form => exact ⟨fun t => by simp, rfl, rfl, rfl⟩
  | declareAttachment form => exact ⟨fun t => by simp, rfl, rfl, rfl⟩
  | declareVarying order form => exact ⟨fun t => by simp [withVarying], rfl, rfl, rfl⟩
  | _ => exact ⟨fun _ => rfl, rfl, rfl, rfl⟩

/-! ## The active stage -/

theorem Transition.opened_of_begin {s : Stage} (h : Transition g (.beginStage s) g') :
    g' = g.opened s := by
  cases h
  rfl

/-- An active stage stays active unless it ends. -/
theorem Transition.active_eq {s : Stage} (h : Transition g c g') (hs : g.active = some s)
    (hc : c ≠ .endStage) : g'.active = some s := by
  cases h with
  | beginStage idle => rw [idle] at hs; cases hs
  | endStage body flat => exact absurd rfl hc
  | _ => exact hs

/-- No stage is active behind a command only if the command ends one, or leaves the bodies alone. -/
theorem Transition.of_idle (h : Transition g c g') (hidle : g'.active = none) :
    (g'.depth = 0 ∧ g'.unpacked = .empty) ∨ SameBodies g g' := by
  by_cases hregion : c.region = .bodies
  · left
    -- a statement needs an active stage and leaves it active
    have hactive {t : Stage} {b : Body} (body : g.openBody? = some (t, b)) : g.active ≠ none := by
      rw [(openBody?_eq_some_iff.mp body).1]
      exact Option.some_ne_none t
    cases h with
    | beginStage idle => cases hidle
    | endStage body flat => exact ⟨rfl, rfl⟩
    | writeStatement plain form body => exact absurd hidle (hactive body)
    | unpackFirst small fresh body => exact absurd hidle (hactive body)
    | unpackAgain small known body => exact absurd hidle (hactive body)
    | enterBlock body => exact absurd hidle (hactive body)
    | leaveBlock body nested => exact absurd hidle (hactive body)
    | _ => cases hregion
  · exact Or.inr (h.sameBodies hregion)

/-- From its beginning on a stage is active as long as no end is accepted. -/
theorem active_of_chain {s : Stage} {calls : List Command} (h : Chain Transition g calls g')
    (hs : g.active = some s) (hend : .endStage ∉ calls) : g'.active = some s := by
  induction h with
  | refl => exact hs
  | snoc _ hT ih =>
    rw [List.mem_append, List.mem_singleton, not_or] at hend
    exact hT.active_eq (ih hend.1) fun hc => hend.2 hc.symm

end Emitter

end GlslEmit
