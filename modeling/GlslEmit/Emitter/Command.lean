/-
# Commands to an emitter

Every operation of an emitter as a value, so that a history of calls is a list.

* `Emitter.step` runs one command and answers with a `Reply`;
* `Emitter.run` runs a list of commands, the refused ones among them.
-/
import GlslEmit.Emitter.Lifecycle
import GlslEmit.Emitter.Preamble
import GlslEmit.Emitter.Header
import GlslEmit.Emitter.Statement

namespace GlslEmit

/-- What an accepted command answers. -/
inductive Reply where
  | done
  | stage (s : Stage)
  /-- A location, or a number of fields. -/
  | number (n : UInt32)
  | type (t : ShaderType)

namespace Emitter

/-- An operation of an emitter. -/
inductive Command where
  | beginStage (s : Stage)
  | endStage
  | declareStruct (s : StructType)
  | declareUniform (v : ResourceVariable)
  | declareBinding (v : ResourceVariable)
  | declareIndices (max : UInt32)
  | declareVertexInput (v : InterfaceVariable)
  | declareFragmentOutput (v : InterfaceVariable)
  | declareAttachment (v : AttachmentVariable)
  | declareVarying (v : Variable) (producer consumer : Stage)
  | perform (statement : Statement)

/-- Runs one command. -/
def step : Command → Action Emitter EmitError Reply
  | .beginStage s => do Emitter.beginStage s; return .done
  | .endStage => do return .stage (← Emitter.endStage)
  | .declareStruct s => do Emitter.declareStruct s; return .done
  | .declareUniform v => do Emitter.declareUniform v; return .done
  | .declareBinding v => do Emitter.declareBinding v; return .done
  | .declareIndices max => do return .number (← Emitter.declareIndices max)
  | .declareVertexInput v => do Emitter.declareVertexInput v; return .done
  | .declareFragmentOutput v => do Emitter.declareFragmentOutput v; return .done
  | .declareAttachment v => do Emitter.declareAttachment v; return .done
  | .declareVarying v producer consumer => do
    return .number (← Emitter.declareVarying v producer consumer)
  | .perform statement => do Emitter.perform statement; return .done

/-- The state after a list of commands, each run on the state that the one before it leaves. -/
def run (commands : List Command) (g : Emitter) : Emitter :=
  commands.foldl (fun g c => (step c g).state) g

end Emitter

end GlslEmit
