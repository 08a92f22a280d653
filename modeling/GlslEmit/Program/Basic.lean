/-
# Programs under construction

A type table, a global scope and an emitter, kept in step: a global declaration is refused if its
name is taken, its text is emitted next, and its name is taken only when that succeeded.

* `Program.declareGlobal` is that discipline, shared by all global declarations;
* `Program.build` finishes a program: it adds the push-constant block for the largest sub-index
  that was used, and collects the sources of all stages.
-/
import GlslEmit.TypeTable
import GlslEmit.Scope
import GlslEmit.Emitter.Command

namespace GlslEmit

/-- The finished texts of a program, in pipeline order. -/
structure Sources where
  stages : List (Stage × String)

namespace Sources

/-- The text of a stage. -/
def get? (sources : Sources) (s : Stage) : Option String := sources.stages.lookup s

/-- The stages that have a text. -/
def stageSet (sources : Sources) : StageSet := .ofList (sources.stages.map (·.1))

/-- The number of texts. -/
def size (sources : Sources) : Nat := sources.stages.length

/-- Whether there is no text. -/
def isEmpty (sources : Sources) : Bool := sources.stages.isEmpty

end Sources

/-- A program under construction. -/
structure Program where
  types : TypeTable
  scope : Scope
  emitter : Emitter
  /-- The largest sub-index that any stage used. -/
  highestIndex : Option UInt32

namespace Program

/-- A program with the given table sizes and nothing declared. -/
def new (sizes : TableSizes) : Program := ⟨.empty, .empty, .new sizes, none⟩

/-- The type that a name means. -/
def resolve? (p : Program) (name : String) : Option ShaderType := p.types.resolve? name

variable {α : Type}

/-- Runs an operation on the emitter of a program. -/
def emitting (x : Action Emitter EmitError α) : Action Program ProgramError α :=
  x.within (·.emitter) (fun g p => { p with emitter := g }) .emission

/-- Adds a type to the type table of a program. -/
def registerType (name : String) (type : ShaderType) : Action Program ProgramError ShaderType :=
  (TypeTable.add name type).within (·.types) (fun t p => { p with types := t }) .registration

/-- Adds a variable to the scope of a program. -/
def registerGlobal (v : Variable) : Action Program ProgramError Unit :=
  (Scope.declare v).within (·.scope) (fun s p => { p with scope := s }) .registration

/-! ## Global declarations -/

/-- Declares a struct and gives it its name. -/
def addStruct (s : StructType) : Action Program ProgramError ShaderType := do
  Action.check fun p => (p.types.checkName s.name).mapError .registration
  emitting (Emitter.declareStruct s)
  registerType s.name (.struct s)

/-- Emits a global declaration under a free name, and takes the name when that succeeded. -/
def declareGlobal (v : Variable) (emission : Action Emitter EmitError α) :
    Action Program ProgramError α := do
  Action.check fun p => (p.scope.checkName v.name).mapError .registration
  let answer ← emitting emission
  registerGlobal v
  return answer

/-- Declares a vertex attribute. -/
def addVertexInput (v : InterfaceVariable) : Action Program ProgramError Unit :=
  declareGlobal v.asInput (Emitter.declareVertexInput v)

/-- Declares a fragment output. -/
def addFragmentOutput (v : InterfaceVariable) : Action Program ProgramError Unit :=
  declareGlobal v.asOutput (Emitter.declareFragmentOutput v)

/-- Declares a resource in the shared tables. -/
def addBinding (v : ResourceVariable) : Action Program ProgramError Unit :=
  declareGlobal v.asBinding (Emitter.declareBinding v)

/-- Declares the uniform block. -/
def addUniform (v : ResourceVariable) : Action Program ProgramError Unit :=
  declareGlobal v.asUniform (Emitter.declareUniform v)

/-- Declares an input attachment. -/
def addAttachment (v : AttachmentVariable) : Action Program ProgramError Unit :=
  declareGlobal v.toVariable (Emitter.declareAttachment v)

/-- Declares a value that one stage passes to a later one, and returns its location. -/
def addVarying (v : Variable) (producer consumer : Stage) : Action Program ProgramError UInt32 :=
  declareGlobal v (Emitter.declareVarying v producer consumer)

/-! ## Stages -/

/-- Makes a stage the active one. -/
def beginStage (s : Stage) : Action Program ProgramError Unit := emitting (Emitter.beginStage s)

/-- Finishes the body of the active stage. -/
def endStage : Action Program ProgramError Stage := emitting Emitter.endStage

/-- Remembers that a sub-index is used. -/
def noteIndex (index : UInt32) : Action Program ProgramError Unit := fun p =>
  let highest := match p.highestIndex with
    | some old => max old index
    | none => index
  .accepted { p with highestIndex := some highest } () []

/-- Reads a sub-index in the active stage and provides for its place in the push constants. -/
def useIndex (index : UInt32) : Action Program ProgramError Unit := do
  emitting (Emitter.perform (.unpack index))
  noteIndex index

/-! ## Finishing -/

/-- Adds the push-constant block if any sub-index was used. -/
def declareUsedIndices : Action Program ProgramError Unit := fun p =>
  match p.highestIndex with
  | none => .accepted p () []
  | some max =>
    let declared : Action Program ProgramError Unit := do
      let _ ← emitting (Emitter.declareIndices max)
      return ()
    declared p

/-- Finishes a program that has no active stage. -/
def build : Action Program ProgramError Sources := do
  Action.check fun p =>
    match p.emitter.active with
    | some s => .error (.emission (.sequence (.stageNotEnded s)))
    | none => .ok ()
  declareUsedIndices
  fun p => .accepted p ⟨p.emitter.sources⟩ [.programBuilt p.emitter.sources.length]

end Program

end GlslEmit
