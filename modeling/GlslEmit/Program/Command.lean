/-
# Commands to a program

Every operation of a program under construction as a value, so that a history of calls is a list.
Body statements, and whatever else goes past the type table and the scope, are direct commands to
the emitter.

* `Program.step` runs one command and answers with a `Reply`;
* `Program.run` runs a list of commands, the refused ones among them.
-/
import GlslEmit.Program.Basic

namespace GlslEmit.Program

/-- An operation of a program under construction. -/
inductive Command where
  | addStruct (s : StructType)
  | addVertexInput (v : InterfaceVariable)
  | addFragmentOutput (v : InterfaceVariable)
  | addBinding (v : ResourceVariable)
  | addUniform (v : ResourceVariable)
  | addAttachment (v : AttachmentVariable)
  | addVarying (v : Variable) (producer consumer : Stage)
  | beginStage (s : Stage)
  | endStage
  | useIndex (index : UInt32)
  /-- A command to the emitter, past the type table and the scope. -/
  | direct (c : Emitter.Command)

/-- Runs one command. -/
def step : Command → Action Program ProgramError Reply
  | .addStruct s => do return .type (← Program.addStruct s)
  | .addVertexInput v => do Program.addVertexInput v; return .done
  | .addFragmentOutput v => do Program.addFragmentOutput v; return .done
  | .addBinding v => do Program.addBinding v; return .done
  | .addUniform v => do Program.addUniform v; return .done
  | .addAttachment v => do Program.addAttachment v; return .done
  | .addVarying v producer consumer => do return .number (← Program.addVarying v producer consumer)
  | .beginStage s => do Program.beginStage s; return .done
  | .endStage => do return .stage (← Program.endStage)
  | .useIndex index => do Program.useIndex index; return .done
  | .direct c => emitting (Emitter.step c)

/-- The state after a list of commands, each run on the state that the one before it leaves. -/
def run (commands : List Command) (p : Program) : Program :=
  commands.foldl (fun p c => (step c p).state) p

end GlslEmit.Program
