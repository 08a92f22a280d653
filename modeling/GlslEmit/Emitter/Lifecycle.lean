/-
# Beginning and ending stages

One stage is active at a time. Beginning a stage opens a fresh body, so that an earlier body of
the same stage is dropped; its header stays. A stage ends only when all its blocks are closed.

* `Emitter.beginStage` is refused while any stage is active;
* `Emitter.endStage` is refused while no stage is active or a block is open.
-/
import GlslEmit.Emitter.Basic

namespace GlslEmit.Emitter

/-- The emitter with a fresh body of the given stage. -/
def opened (g : Emitter) (s : Stage) : Emitter :=
  { g.setBody s .fresh with active := some s, depth := 1, unpacked := .empty }

/-- The emitter with the given body finished and no stage active. -/
def ended (g : Emitter) (s : Stage) (b : Body) : Emitter :=
  { g.setBody s b.close with active := none, depth := 0, unpacked := .empty }

/-- Makes a stage the active one. -/
def beginStage (s : Stage) : Action Emitter EmitError Unit := fun g =>
  match g.active with
  | some a => .refused g (.sequence (.stageAlreadyActive a s))
  | none =>
    .accepted (g.opened s) ()
      ((if g.isActivated s then [.bodyDiscarded s] else []) ++ [.stageBegun s])

/-- Finishes the body of the active stage. -/
def endStage : Action Emitter EmitError Stage := do
  let s ← Action.check fun g =>
    match g.active with
    | some s => .ok s
    | none => .error (.sequence (.stageInactive "end_stage"))
  Action.check fun g =>
    if g.depth > 1 then .error (.sequence (.unclosedBlocks s g.openBlocks)) else .ok ()
  fun g =>
    match g.openBody? with
    | none => .refused g (.sequence (.stageInactive "end_stage"))
    | some (s, b) => .accepted (g.ended s b) s [.stageEnded s]

end GlslEmit.Emitter
