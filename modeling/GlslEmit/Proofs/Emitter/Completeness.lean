/-
# Which types reach the output

Some builtin types only hold a place: an image or a texel buffer lacks its texel, a buffer its body.
A binding or a uniform block of such a type is refused without a trace, but no single test does it.
The spelling needs the texel of an image and of a read-write texel buffer, and the block needs the
body of a buffer.  Nothing needs the texel of a read-only texel buffer, whose token is always the
same, so a binding of it is accepted without one.

* `isComplete_of_spelling`: what has a spelling and is no buffer has its texel, up to this exception;
* `bindingForm_of_incomplete`: why any other binding without its payload is refused;
* `Emitter.types_of_accepted`: the types of accepted bindings and uniform blocks;
* `Emitter.accepted_type_not_always_complete`: the exception is a builtin type.
-/
import GlslEmit.ShaderType.Builtin
import GlslEmit.Proofs.Emitter.DescriptorType

namespace GlslEmit

/-! ## Payloads that spellings need -/

/-- A resource with a spelling has its texel, unless it is a buffer or a read-only texel buffer. -/
theorem isComplete_of_spelling {t : ShaderType} {s : ResourceSpelling}
    (hbuffer : t.isBuffer = false) (h : t.resourceSpelling = .ok s) :
    t.isComplete = true ∨ t = .texels .readOnly none := by
  cases t with
  | buffer kind body => cases hbuffer
  | image dims texel =>
    cases texel with
    | some texel => exact Or.inl rfl
    | none =>
      -- without a texel there is no format
      rw [ShaderType.resourceSpelling] at h
      cases hending : dims.tokenEnding? <;> rw [hending] at h <;> cases h
  | texels access texel =>
    cases texel with
    | some texel => exact Or.inl rfl
    | none =>
      cases access with
      | readOnly => exact Or.inr rfl
      | readWrite => cases h
  | _ => exact Or.inl rfl

/-- Why a binding is refused whose type lacks its payload.  A buffer is called incomplete; an image
or a texel buffer has no format, and an image of some dimensionalities not even a token. -/
def missingPayload (v : ResourceVariable) : EmitError :=
  match v.type with
  | .buffer _ _ => .incompleteType v.name v.type.describe
  | .image .none _ => .unmappableType ("binding '" ++ v.name ++ "'") v.type.describe
  | .image .shadow _ => .unmappableType ("binding '" ++ v.name ++ "'") v.type.describe
  | _ => .invalidFormat v.name

/-- A binding without its payload has no form, unless it is a read-only texel buffer. -/
theorem bindingForm_of_incomplete {v : ResourceVariable} (h : v.type.isComplete = false)
    (hopen : v.type ≠ .texels .readOnly none) (sizes : TableSizes) (id : UInt32) :
    bindingForm sizes id v = .error (missingPayload v) := by
  obtain ⟨name, t⟩ := v
  cases t with
  | image dims texel =>
    cases texel with
    | some texel => cases h
    | none => cases dims <;> rfl
  | buffer kind body =>
    cases body with
    | some body => cases h
    | none => rfl
  | texels access texel =>
    cases texel with
    | some texel => cases h
    | none =>
      cases access with
      | readOnly => exact absurd rfl hopen
      | readWrite => rfl
  | _ => cases h

/-- Why a uniform block is refused whose type lacks its payload: it is an incomplete buffer, or no
uniform buffer at all. -/
def missingBlock (v : ResourceVariable) : EmitError :=
  match v.type with
  | .buffer .uniform _ => .incompleteType v.name v.type.describe
  | _ => .unmappableType ("uniform '" ++ v.name ++ "'") v.type.describe

theorem uniformDeclaration_of_incomplete {v : ResourceVariable} (h : v.type.isComplete = false) :
    uniformDeclaration v = .error (missingBlock v) := by
  obtain ⟨name, t⟩ := v
  cases t with
  | buffer kind body =>
    cases body with
    | some body => cases h
    | none => cases kind <;> rfl
  | _ => rfl

/-! ## The table of the read-only texel buffers -/

/-- The table that every read-only texel buffer needs. -/
def openTexelTable (sizes : TableSizes) : ResourceTable :=
  ⟨ResourceClass.readOnlyTexels.slot sizes, ⟨"textureBuffer", none⟩⟩

theorem openTexelTable_name (sizes : TableSizes) :
    (openTexelTable sizes).name = "_textureBuffer_TABLE_" := by
  have hname : tableName "textureBuffer" none = "_textureBuffer_TABLE_" := by decide
  exact hname

theorem openTexelTable_text (sizes : TableSizes) : (openTexelTable sizes).text =
    "layout(set = 0, binding = 3) uniform textureBuffer _textureBuffer_TABLE_[" ++
      toString sizes.readOnlyTexels ++ "];\n\n" := by
  have hfront : "layout(set = 0, binding = 3)" ++ " uniform " ++ "textureBuffer" ++ " " ++
      "_textureBuffer_TABLE_" ++ "[" =
        "layout(set = 0, binding = 3) uniform textureBuffer _textureBuffer_TABLE_[" := by
    decide
  have hlayout : layoutText (openTexelTable sizes).slot none = "layout(set = 0, binding = 3)" := by
    have hplace : "layout(set = " ++ toString 0 ++ ", binding = " ++ toString 3 ++ "" ++ ")" =
        "layout(set = 0, binding = 3)" := by
      decide
    exact hplace
  rw [ResourceTable.text, openTexelTable_name, ← hfront, ← hlayout]
  rfl

/-- A read-only texel buffer needs no texel to have its form. -/
theorem bindingForm_of_openTexels {v : ResourceVariable} (h : v.type = .texels .readOnly none)
    (sizes : TableSizes) (id : UInt32) :
    bindingForm sizes id v = .ok (.table (openTexelTable sizes)) := by
  rw [bindingForm, h]
  rfl

namespace Emitter

variable {g g' : Emitter} {v : ResourceVariable}

/-! ## Types of accepted commands -/

/-- An accepted binding has its payload, and the body of a buffer is a struct. -/
theorem Transition.type_of_binding (h : Transition g (.declareBinding v) g') :
    (v.type.isComplete = true ∨ v.type = .texels .readOnly none) ∧
      (v.type.isBuffer = true → ∃ kind s, v.type = .buffer kind (some (.struct s))) := by
  have htable {t : ResourceTable} (form : bindingForm g.sizes g.nextBlock v = .ok (.table t)) :
      (v.type.isComplete = true ∨ v.type = .texels .readOnly none) ∧
        (v.type.isBuffer = true → ∃ kind s, v.type = .buffer kind (some (.struct s))) := by
    obtain ⟨hbuffer, hspelling⟩ := spelling_of_table form
    refine ⟨isComplete_of_spelling hbuffer hspelling, fun hb => ?_⟩
    rw [hbuffer] at hb
    cases hb
  cases h with
  | declareBlock form =>
    obtain ⟨kind, s, htype, -⟩ := body_of_block form
    exact ⟨Or.inl (by rw [htype]; rfl), fun _ => ⟨kind, s, htype⟩⟩
  | declareTable form fresh => exact htable form
  | shareTable form declared => exact htable form

/-- The type of an accepted uniform block is a uniform buffer of a struct. -/
theorem Transition.type_of_uniform (h : Transition g (.declareUniform v) g') :
    ∃ s, v.type = .buffer .uniform (some (.struct s)) := by
  cases h with
  | declareUniform first form =>
    obtain ⟨s, htype, -⟩ := uniformDeclaration_eq_ok form
    exact ⟨s, htype⟩

/-- A binding without a form is refused without a trace. -/
theorem step_binding_of_error {e : EmitError}
    (form : bindingForm g.sizes g.nextBlock v = .error e) :
    step (.declareBinding v) g = .refused g e := by
  refine Action.bind_refused ?_ _
  rw [declareBinding, form]

/-- A uniform block without a declaration is refused without a trace, for the reason that there is
one already if there is. -/
theorem step_uniform_of_error {e : EmitError} (form : uniformDeclaration v = .error e) :
    step (.declareUniform v) g =
      .refused g (if g.uniformDeclared then .duplicateUniform v.name else e) := by
  refine Action.bind_refused ?_ _
  by_cases hfirst : g.uniformDeclared = true
  · rw [declareUniform, if_pos hfirst, if_pos hfirst]
  · rw [declareUniform, if_neg hfirst, if_neg hfirst, form]

/-- A read-only texel buffer without a texel is accepted: it declares the table of its token, or
shares it. -/
theorem preamble_of_openTexels (h : v.type = .texels .readOnly none) :
    (step (.declareBinding v) g).result.isOk = true ∧
      (step (.declareBinding v) g).state.preamble = g.preamble ++
        if g.tables.contains "_textureBuffer_TABLE_" then "" else (openTexelTable g.sizes).text := by
  have form := bindingForm_of_openTexels h g.sizes g.nextBlock
  have hname := openTexelTable_name g.sizes
  by_cases hdeclared : g.tables.contains "_textureBuffer_TABLE_" = true
  · have hstep : step (.declareBinding v) g = _ :=
      Action.bind_accepted (shareTable_accepted form (hname ▸ hdeclared)) rfl
    rw [hstep, if_pos hdeclared, String.append_empty]
    exact ⟨rfl, rfl⟩
  · have hfresh : ¬ g.tables.contains (openTexelTable g.sizes).name = true := hname ▸ hdeclared
    have hstep : step (.declareBinding v) g = _ :=
      Action.bind_accepted (declareTable_accepted form hfresh) rfl
    rw [if_neg hdeclared, preamble_of_undeclared form hfresh, hstep]
    exact ⟨rfl, rfl⟩

/-- **Which types reach the output.**  In every state of an emitter, the type of an accepted binding
has its texel or its body, unless it is a read-only texel buffer, and the body of a buffer is a
struct; the type of an accepted uniform block is a uniform buffer with a struct for its body.  Any
other binding without its payload, and every uniform block without its payload, is refused for a
reason of its own, leaves the state as it is and reports nothing.  A read-only texel buffer without
a texel is always accepted as a binding, and declares the table `_textureBuffer_TABLE_` unless that
is declared already. -/
theorem types_of_accepted (g : Emitter) (v : ResourceVariable) :
    ((step (.declareBinding v) g).result.isOk = true →
      (v.type.isComplete = true ∨ v.type = .texels .readOnly none) ∧
        (v.type.isBuffer = true → ∃ kind s, v.type = .buffer kind (some (.struct s)))) ∧
    ((step (.declareUniform v) g).result.isOk = true →
      v.type.isComplete = true ∧ ∃ s, v.type = .buffer .uniform (some (.struct s))) ∧
    (v.type.isComplete = false →
      (v.type ≠ .texels .readOnly none →
        step (.declareBinding v) g = .refused g (missingPayload v)) ∧
      step (.declareUniform v) g =
        .refused g (if g.uniformDeclared then .duplicateUniform v.name else missingBlock v)) ∧
    (v.type = .texels .readOnly none →
      (step (.declareBinding v) g).result.isOk = true ∧
        (step (.declareBinding v) g).state.preamble = g.preamble ++
          if g.tables.contains "_textureBuffer_TABLE_" then "" else
            "layout(set = 0, binding = 3) uniform textureBuffer _textureBuffer_TABLE_[" ++
              toString g.sizes.readOnlyTexels ++ "];\n\n") := by
  refine ⟨fun hok => ?_, fun hok => ?_, fun hincomplete => ⟨fun hopen => ?_, ?_⟩, fun hopen => ?_⟩
  · have hsettles : (step (.declareBinding v)).Settles g (Transition g (.declareBinding v)) :=
      (declareBinding_settles v).answer _
    exact (hsettles.of_isOk hok).type_of_binding
  · have hsettles : (step (.declareUniform v)).Settles g (Transition g (.declareUniform v)) :=
      (declareUniform_settles v).answer _
    obtain ⟨s, htype⟩ := (hsettles.of_isOk hok).type_of_uniform
    exact ⟨by rw [htype]; rfl, s, htype⟩
  · exact step_binding_of_error (bindingForm_of_incomplete hincomplete hopen _ _)
  · exact step_uniform_of_error (uniformDeclaration_of_incomplete hincomplete)
  · rw [← openTexelTable_text]
    exact preamble_of_openTexels hopen

/-- An emitter that has declared a uniform block and a buffer, and then meets three builtin types
that lack their payload: two are refused, and the read-only texel buffer is accepted. -/
theorem types_of_accepted_placeholders :
    let light : ShaderType := .struct ⟨"Light", []⟩
    let scene : ResourceVariable := ⟨"scene", .buffer .uniform (some light)⟩
    let lights : ResourceVariable := ⟨"lights", .buffer .readWrite (some light)⟩
    let data : ResourceVariable := ⟨"data", .buffer .readWrite none⟩
    let img : ResourceVariable := ⟨"img", .image .d3 none⟩
    let weights : ResourceVariable := ⟨"weights", .texels .readOnly none⟩
    let g := run [.declareUniform scene, .declareBinding lights] (new .standard)
    (∃ kind s, lights.type = .buffer kind (some (.struct s))) ∧
      step (.declareBinding data) g = .refused g (.incompleteType "data" data.type.describe) ∧
      step (.declareUniform data) g = .refused g (.duplicateUniform "data") ∧
      step (.declareBinding img) g = .refused g (.invalidFormat "img") ∧
      (step (.declareBinding weights) g).state.preamble = g.preamble ++
        ("layout(set = 0, binding = 3) uniform textureBuffer _textureBuffer_TABLE_[" ++
          toString TableSizes.standard.readOnlyTexels ++ "];\n\n") := by
  intro light scene lights data img weights g
  obtain ⟨hlights, -⟩ := types_of_accepted (run [.declareUniform scene] (new .standard)) lights
  obtain ⟨-, -, hdata, -⟩ := types_of_accepted g data
  obtain ⟨-, -, himg, -⟩ := types_of_accepted g img
  obtain ⟨-, -, -, hweights⟩ := types_of_accepted g weights
  have hdeclared : g.uniformDeclared = true := rfl
  have hfresh : ¬ g.tables.contains "_textureBuffer_TABLE_" = true := by
    have htables : g.tables = ∅ := rfl
    simp [htables]
  have hsizes : g.sizes = .standard := rfl
  refine ⟨(hlights rfl).2 rfl, (hdata rfl).1 (by simp [data]), ?_, (himg rfl).1 (by simp [img]), ?_⟩
  · rw [(hdata rfl).2, if_pos hdeclared]
  · rw [(hweights rfl).2, if_neg hfresh, hsizes]

/-- The builtin type `ROTexels` is accepted as it stands, although it lacks its texel. -/
theorem accepted_type_not_always_complete :
    builtin? "ROTexels" = some (.texels .readOnly none) ∧
      ¬ ∀ (g : Emitter) (c : Command) (v : ResourceVariable), g.Reachable → c.resource? = some v →
        (step c g).result.isOk = true → v.type.isComplete = true := by
  refine ⟨rfl, fun h => ?_⟩
  have hcomplete := h (new .standard) (.declareBinding ⟨"weights", .texels .readOnly none⟩) _
    ⟨.standard, [], rfl⟩ rfl rfl
  cases hcomplete

end Emitter

end GlslEmit
