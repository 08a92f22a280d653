/-
# Writing the preamble

The declarations that all stages share. Each operation first finds its declaration, which may be
refused, and then adds it in one step.

* `structDeclaration`, `uniformDeclaration` and `bindingForm` find a declaration or the cause why
  there is none;
* a buffer binding gets a numbered block of its own; any other binding shares the table of its
  spelling, which is declared by the first binding that needs it.
-/
import GlslEmit.Emitter.Basic

namespace GlslEmit

/-! ## Finding declarations -/

/-- The declared form of a struct member. -/
def memberField (owner : String) (m : StructMember) : Except EmitError Field :=
  match m.type.memberToken? with
  | some token => .ok ⟨token, m.name, m.arraySize⟩
  | none =>
    .error (.unmappableType ("struct member '" ++ owner ++ "." ++ m.name ++ "'") m.type.describe)

/-- The declared forms of the members, up to the first one that has none. -/
def memberFields (owner : String) : List StructMember → Except EmitError (List Field)
  | [] => .ok []
  | m :: rest =>
    match memberField owner m with
    | .error e => .error e
    | .ok field =>
      match memberFields owner rest with
      | .error e => .error e
      | .ok fields => .ok (field :: fields)

/-- The declaration of a struct. -/
def structDeclaration (s : StructType) : Except EmitError Declaration :=
  (memberFields s.name s.members).map (.struct s.name)

/-- The declaration of the uniform block, whose type is a uniform buffer with a struct body. -/
def uniformDeclaration (v : ResourceVariable) : Except EmitError Declaration :=
  match v.type with
  | .buffer .uniform body =>
    match body.bind (·.structName?) with
    | some name => .ok (.uniformBlock name v.name)
    | none => .error (.incompleteType v.name v.type.describe)
  | type => .error (.unmappableType ("uniform '" ++ v.name ++ "'") type.describe)

/-- What a binding declares: a block of its own, or the table that it shares. -/
inductive BindingForm where
  | block (b : BufferBlock)
  | table (t : ResourceTable)

/-- The form of a binding, with the number that its block would get. -/
def bindingForm (sizes : TableSizes) (blockId : UInt32) (v : ResourceVariable) :
    Except EmitError BindingForm :=
  match v.type.resourceSpelling with
  | .error .unmappable =>
    .error (.unmappableType ("binding '" ++ v.name ++ "'") v.type.describe)
  | .error .invalidFormat => .error (.invalidFormat v.name)
  | .ok spelling =>
    match ResourceClass.of? v.type with
    | none => .error (.invalidBindingKind v.name v.type.kind)
    | some c =>
      match v.type with
      | .buffer kind body =>
        match body.bind (·.structName?) with
        | some name => .ok (.block ⟨blockId, kind, c.slot sizes, name, v.name⟩)
        | none => .error (.incompleteType v.name v.type.describe)
      | _ => .ok (.table ⟨c.slot sizes, spelling⟩)

/-- Only a buffer gets a block of its own. -/
theorem isBuffer_of_block {sizes : TableSizes} {blockId : UInt32} {v : ResourceVariable}
    {b : BufferBlock} (h : bindingForm sizes blockId v = .ok (.block b)) :
    v.type.isBuffer = true := by
  unfold bindingForm at h
  split at h
  · cases h
  · cases h
  · split at h
    · cases h
    · split at h
      · next hkind => rw [hkind]; rfl
      · cases h

/-- A table is shared by resources of one spelling, which are no buffers. -/
theorem spelling_of_table {sizes : TableSizes} {blockId : UInt32} {v : ResourceVariable}
    {t : ResourceTable} (h : bindingForm sizes blockId v = .ok (.table t)) :
    v.type.isBuffer = false ∧ v.type.resourceSpelling = .ok t.spelling := by
  unfold bindingForm at h
  split at h
  · cases h
  · cases h
  · next spelling hspelling =>
    split at h
    · cases h
    · split at h
      · split at h <;> cases h
      · next hkind =>
        cases h
        refine ⟨?_, hspelling⟩
        cases htype : v.type with
        | buffer kind body => exact absurd htype (hkind kind body)
        | _ => rfl

/-! ## Operations -/

namespace Emitter

/-- Declares a struct. -/
def declareStruct (s : StructType) : Action Emitter EmitError Unit := fun g =>
  match structDeclaration s with
  | .error e => .refused g e
  | .ok d => .accepted (g.declare d) () [.structEmitted s.name]

/-- Declares the uniform block, once. -/
def declareUniform (v : ResourceVariable) : Action Emitter EmitError Unit := fun g =>
  if g.uniformDeclared then .refused g (.duplicateUniform v.name)
  else
    match uniformDeclaration v with
    | .error e => .refused g e
    | .ok d => .accepted { g.declare d with uniformDeclared := true } () []

/-- Declares a binding. A binding whose table is declared already writes nothing. -/
def declareBinding (v : ResourceVariable) : Action Emitter EmitError Unit := fun g =>
  match bindingForm g.sizes g.nextBlock v with
  | .error e => .refused g e
  | .ok (.block b) =>
    .accepted { g.declare (.bufferBlock b) with nextBlock := g.nextBlock + 1 } ()
      [.bindingEmitted v.name v.type]
  | .ok (.table t) =>
    if g.tables.contains t.name then .accepted g () [.tableReused v.name t.name]
    else
      .accepted { g.declare (.table t) with tables := g.tables.insert t.name } ()
        [.bindingEmitted v.name v.type]

/-- Declares the push-constant block for the sub-indices up to a largest one, and returns the
number of its fields. -/
def declareIndices (max : UInt32) : Action Emitter EmitError UInt32 := fun g =>
  if max < maxSubIndices then
    .accepted (g.declare (.pushConstants (subIndexFields max))) (subIndexFields max) []
  else .refused g (.indexOutOfRange max (maxSubIndices - 1))

end Emitter

end GlslEmit
