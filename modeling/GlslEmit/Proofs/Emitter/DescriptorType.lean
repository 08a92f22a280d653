/-
# What lies at a descriptor place

Every accepted binding and every accepted uniform block has a declaration in the preamble, which
carries a descriptor set and a binding.  Resources at one place are of one descriptor type, with one
exception: the place of the buffers holds uniform buffers and storage buffers alike.

* `ShaderType.descriptorType?` is the descriptor type of a resource;
* `Declaration.place?` is the place that a declaration carries, also in its text;
* `Emitter.DeclaresBy`: an accepted command of a run, with the declaration that it wrote or shares;
* `Emitter.exists_declaration`: every accepted command for a resource has such a declaration;
* `Emitter.descriptor_types_of_place`: the exception is the only one;
* `Emitter.slot_not_always_one_descriptor_type`: the exception occurs.
-/
import GlslEmit.Proofs.Emitter.Tables

namespace GlslEmit

/-! ## Descriptor types -/

/-- What kind of descriptor a place is written with. -/
inductive DescriptorType where
  | sampler
  | storageImage
  | uniformBuffer
  | storageBuffer
  | uniformTexelBuffer
  | storageTexelBuffer
  deriving DecidableEq

/-- The descriptor type of the resources that can lie in a table or in the uniform block. -/
def ShaderType.descriptorType? : ShaderType → Option DescriptorType
  | sampler _ => some .sampler
  | image _ _ => some .storageImage
  | buffer .uniform _ => some .uniformBuffer
  | buffer .readOnly _ => some .storageBuffer
  | buffer .readWrite _ => some .storageBuffer
  | texels .readOnly _ => some .uniformTexelBuffer
  | texels .readWrite _ => some .storageTexelBuffer
  | _ => none

/-- The descriptor types of the resources of a class. -/
def ResourceClass.descriptorTypes : ResourceClass → List DescriptorType
  | samplers => [.sampler]
  | images => [.storageImage]
  | buffers => [.uniformBuffer, .storageBuffer]
  | readOnlyTexels => [.uniformTexelBuffer]
  | readWriteTexels => [.storageTexelBuffer]

/-- One type is a uniform buffer and the other one a storage buffer. -/
def MixesBuffers (t t' : ShaderType) : Prop :=
  (t.descriptorType? = some .uniformBuffer ∧ t'.descriptorType? = some .storageBuffer) ∨
    (t.descriptorType? = some .storageBuffer ∧ t'.descriptorType? = some .uniformBuffer)

theorem exists_descriptorType {t : ShaderType} {c : ResourceClass}
    (h : ResourceClass.of? t = some c) :
    ∃ k ∈ c.descriptorTypes, t.descriptorType? = some k := by
  cases t with
  | sampler dims => cases h; exact ⟨.sampler, by decide, rfl⟩
  | image dims texel => cases h; exact ⟨.storageImage, by decide, rfl⟩
  | buffer kind body =>
    cases h
    cases kind with
    | uniform => exact ⟨.uniformBuffer, by decide, rfl⟩
    | readOnly => exact ⟨.storageBuffer, by decide, rfl⟩
    | readWrite => exact ⟨.storageBuffer, by decide, rfl⟩
  | texels access texel =>
    cases access with
    | readOnly => cases h; exact ⟨.uniformTexelBuffer, by decide, rfl⟩
    | readWrite => cases h; exact ⟨.storageTexelBuffer, by decide, rfl⟩
  | _ => cases h

/-- Resources of one class have one descriptor type, unless they are buffers. -/
theorem descriptorType_eq_of_class {t t' : ShaderType} {c : ResourceClass}
    (h : ResourceClass.of? t = some c) (h' : ResourceClass.of? t' = some c) :
    t.descriptorType? = t'.descriptorType? ∨ c = .buffers ∧ MixesBuffers t t' := by
  obtain ⟨k, hk, ht⟩ := exists_descriptorType h
  obtain ⟨k', hk', ht'⟩ := exists_descriptorType h'
  rw [MixesBuffers, ht, ht']
  cases c with
  | buffers =>
    rcases List.mem_pair.mp hk with rfl | rfl <;> rcases List.mem_pair.mp hk' with rfl | rfl <;>
      decide
  | _ => exact Or.inl (by rw [List.mem_singleton.mp hk, List.mem_singleton.mp hk'])

/-! ## Places -/

/-- The descriptor set and the binding that a declaration carries. -/
def Declaration.place? : Declaration → Option (Nat × Nat)
  | uniformBlock _ _ => some (uniformSet, 0)
  | bufferBlock b => some (b.slot.set, b.slot.binding)
  | table t => some (t.slot.set, t.slot.binding)
  | _ => none

theorem layoutText_eq (slot : Slot) (qualifier : Option Qualifier) :
    layoutText slot qualifier = "layout(set = " ++ toString slot.set ++ ", binding = " ++
      toString slot.binding ++ (qualifier.map Qualifier.text).elim "" (", " ++ ·) ++ ")" := by
  cases qualifier <;> rfl

/-- The place stands in the layout of the declaration, in front of a qualifier or of none. -/
theorem exists_text_of_place {d : Declaration} {set binding : Nat}
    (h : d.place? = some (set, binding)) :
    ∃ (qualifier : Option String) (rest : String), d.text =
      "layout(set = " ++ toString set ++ ", binding = " ++ toString binding ++
        qualifier.elim "" (", " ++ ·) ++ ")" ++ rest := by
  cases d with
  | uniformBlock body name =>
    cases h
    have hlayout : ", binding = 0, scalar) uniform _UBUFFER0_ " =
        ", binding = " ++ ("0" ++ (", " ++ "scalar" ++ (")" ++ " uniform _UBUFFER0_ "))) := by
      decide
    refine ⟨some "scalar", " uniform _UBUFFER0_ " ++ "\x7b\n\t" ++ structToken body ++ " " ++ name ++
      ";\n\x7d;\n\n", ?_⟩
    rw [text_uniformBlock, hlayout]
    simp only [String.append_assoc, Option.elim_some, -String.reduceAppend]
    rfl
  | bufferBlock b =>
    cases h
    refine ⟨some b.kind.packing.text, " " ++ b.kind.storageText ++ " " ++ b.blockName ++
      " \x7b\n\t" ++ structToken b.body ++ " _data_" ++ b.kind.memberSuffix ++ ";\n\x7d " ++
        b.name ++ "[" ++ toString b.slot.tableSize ++ "];\n\n", ?_⟩
    rw [text_bufferBlock, layoutText_eq]
    simp only [String.append_assoc, Option.map_some]
  | table t =>
    cases h
    have htext : (Declaration.table t).text = layoutText t.slot t.spelling.qualifier ++
      " uniform " ++ t.spelling.token ++ " " ++ t.name ++ "[" ++ toString t.slot.tableSize ++
        "];\n\n" := rfl
    refine ⟨t.spelling.qualifier.map Qualifier.text, " uniform " ++ t.spelling.token ++ " " ++
      t.name ++ "[" ++ toString t.slot.tableSize ++ "];\n\n", ?_⟩
    rw [htext, layoutText_eq]
    simp only [String.append_assoc]
  | _ => cases h

namespace Emitter

variable {sizes : TableSizes} {commands before after : List Command}
variable {g g' : Emitter} {c c' : Command} {v v' : ResourceVariable} {d d' : Declaration}

/-! ## Declarations of resources -/

/-- The resource that a command declares. -/
def Command.resource? : Command → Option ResourceVariable
  | declareUniform v => some v
  | declareBinding v => some v
  | _ => none

/-- The declaration of a resource, as the emitter writes it or finds it written. -/
def Command.declarationAt? (g : Emitter) : Command → Option Declaration
  | declareUniform v => (uniformDeclaration v).toOption
  | declareBinding v =>
    match bindingForm g.sizes g.nextBlock v with
    | .ok (.block b) => some (.bufferBlock b)
    | .ok (.table t) => some (.table t)
    | .error _ => none
  | _ => none

/-- A run accepts the command `c` for the resource `v`, which it declares by `d`. -/
def DeclaresBy (sizes : TableSizes) (commands : List Command) (c : Command)
    (v : ResourceVariable) (d : Declaration) : Prop :=
  ∃ before after, commands = before ++ c :: after ∧ c.resource? = some v ∧
    (step c (run before (new sizes))).result.isOk = true ∧
    c.declarationAt? (run before (new sizes)) = some d

/-- An accepted command for a resource has a declaration, which stands in the preamble behind it. -/
theorem exists_declaration (hc : c.resource? = some v)
    (hok : (step c (run before (new sizes))).result.isOk = true) :
    ∃ d, c.declarationAt? (run before (new sizes)) = some d ∧
      d ∈ (step c (run before (new sizes))).state.declarations := by
  have hwell : (run before (new sizes)).WellFormed := wellFormed_run (wellFormed_new sizes) before
  have hT := (step_settles c (run before (new sizes)) hwell).of_isOk hok
  generalize hg : run before (new sizes) = g at hT ⊢
  generalize (step c g).state = g' at hT ⊢
  cases hT with
  | @declareUniform w d first form =>
    exact ⟨d, by rw [Command.declarationAt?, form]; rfl, by simp [declare]⟩
  | @declareBlock w b form =>
    exact ⟨.bufferBlock b, by rw [Command.declarationAt?, form], by simp [declare]⟩
  | @declareTable w t form fresh =>
    exact ⟨.table t, by rw [Command.declarationAt?, form], by simp [declare]⟩
  | @shareTable w t form declared =>
    refine ⟨.table t, by rw [Command.declarationAt?, form], ?_⟩
    have hsizes : g.sizes = sizes := by
      rw [← hg]
      exact (reflects_run sizes before).preamble.sizes_eq
    rw [hsizes] at form
    rw [← hg] at declared ⊢
    exact table_mem_of_contains form declared
  | _ => cases hc

/-- What a command of a run has declared stays declared. -/
theorem mem_declarations_of_split (hsplit : commands = before ++ c :: after)
    (hd : d ∈ (step c (run before (new sizes))).state.declarations) :
    d ∈ (run commands (new sizes)).declarations := by
  have hwell : (run before (new sizes)).WellFormed := wellFormed_run (wellFormed_new sizes) before
  obtain ⟨rest, hrest⟩ := exists_declarations_eq (chain_run (step_wellFormed hwell c) after)
  rw [hsplit, run_append_cons, hrest]
  exact List.mem_append_left rest hd

/-- A resource is declared as the uniform block, or at the place of its class. -/
theorem place_of_declarationAt (hc : c.resource? = some v) (hd : c.declarationAt? g = some d) :
    (c = .declareUniform v ∧ d.place? = some (1, 0) ∧
      v.type.descriptorType? = some .uniformBuffer) ∨
    (c = .declareBinding v ∧ ∃ k, ResourceClass.of? v.type = some k ∧
      d.place? = some (0, k.binding)) := by
  cases c with
  | declareUniform w =>
    obtain rfl : w = v := Option.some.inj hc
    cases form : uniformDeclaration w with
    | error e =>
      rw [Command.declarationAt?, form] at hd
      cases hd
    | ok d' =>
      rw [Command.declarationAt?, form] at hd
      obtain rfl : d' = d := Option.some.inj hd
      obtain ⟨s, htype, rfl⟩ := uniformDeclaration_eq_ok form
      exact Or.inl ⟨rfl, rfl, by rw [htype]; rfl⟩
  | declareBinding w =>
    obtain rfl : w = v := Option.some.inj hc
    right
    refine ⟨rfl, ?_⟩
    cases form : bindingForm g.sizes g.nextBlock w with
    | error e =>
      simp only [Command.declarationAt?, form] at hd
      cases hd
    | ok form' =>
      cases form' with
      | block b =>
        simp only [Command.declarationAt?, form] at hd
        obtain rfl := Option.some.inj hd
        obtain ⟨kind, s, htype, -⟩ := body_of_block form
        refine ⟨.buffers, by rw [htype]; rfl, ?_⟩
        rw [Declaration.place?, slot_of_block form]
        rfl
      | table t =>
        simp only [Command.declarationAt?, form] at hd
        obtain rfl := Option.some.inj hd
        obtain ⟨-, -, k, hclass, hslot⟩ := bindingForm_eq_table_iff.mp form
        exact ⟨k, hclass, by rw [Declaration.place?, hslot]; rfl⟩
  | _ => cases hc

/-! ## Places and descriptor types -/

/-- **What lies at a descriptor place.**  In every run, an accepted binding or uniform block has a
declaration in the preamble that carries a place, and its type has a descriptor type.  Two of them
that carry the same place have the same descriptor type, with one exception: at binding 2 of set 0,
one may be a uniform buffer and the other one a storage buffer.  That place holds the bindings of
all buffers, whatever their kind. -/
theorem descriptor_types_of_place (sizes : TableSizes) (commands : List Command) :
    (∀ before c after v, commands = before ++ c :: after → c.resource? = some v →
      (step c (run before (new sizes))).result.isOk = true →
      ∃ d set binding qualifier rest, DeclaresBy sizes commands c v d ∧
        d ∈ (run commands (new sizes)).declarations ∧ d.place? = some (set, binding) ∧
        d.text = "layout(set = " ++ toString set ++ ", binding = " ++ toString binding ++
          Option.elim qualifier "" (", " ++ ·) ++ ")" ++ rest ∧
        v.type.descriptorType?.isSome = true) ∧
    (∀ c c' v v' d d', DeclaresBy sizes commands c v d → DeclaresBy sizes commands c' v' d' →
      d.place? = d'.place? →
        v.type.descriptorType? = v'.type.descriptorType? ∨
        d.place? = some (0, 2) ∧ MixesBuffers v.type v'.type) ∧
    ∀ v d, DeclaresBy sizes commands (.declareBinding v) v d → v.type.isBuffer = true →
      d.place? = some (0, 2) := by
  refine ⟨fun before c after v hsplit hc hok => ?_, fun c c' v v' d d' h h' hplace => ?_,
    fun v d h hbuffer => ?_⟩
  · obtain ⟨d, hd, hmem⟩ := exists_declaration hc hok
    obtain ⟨set, binding, hplace, htype⟩ : ∃ set binding, d.place? = some (set, binding) ∧
        v.type.descriptorType?.isSome = true := by
      rcases place_of_declarationAt hc hd with ⟨-, hplace, htype⟩ | ⟨-, k, hclass, hplace⟩
      · exact ⟨1, 0, hplace, by rw [htype]; rfl⟩
      · obtain ⟨_, -, htype⟩ := exists_descriptorType hclass
        exact ⟨0, k.binding, hplace, by rw [htype]; rfl⟩
    obtain ⟨qualifier, rest, htext⟩ := exists_text_of_place hplace
    refine ⟨d, set, binding, qualifier, rest, ⟨before, after, hsplit, hc, hok, hd⟩, ?_, hplace,
      htext, htype⟩
    exact mem_declarations_of_split hsplit hmem
  · obtain ⟨before, after, -, hc, hok, hd⟩ := h
    obtain ⟨before', after', -, hc', hok', hd'⟩ := h'
    rcases place_of_declarationAt hc hd with ⟨-, hd, htype⟩ | ⟨-, k, hclass, hd⟩
    · rcases place_of_declarationAt hc' hd' with ⟨-, hd', htype'⟩ | ⟨-, k', -, hd'⟩
      · exact Or.inl (htype.trans htype'.symm)
      · -- the uniform block has a descriptor set of its own
        rw [hd, hd'] at hplace
        cases hplace
    · rcases place_of_declarationAt hc' hd' with ⟨-, hd', -⟩ | ⟨-, k', hclass', hd'⟩
      · rw [hd, hd'] at hplace
        cases hplace
      · rw [hd, hd', Option.some.injEq, Prod.mk.injEq] at hplace
        obtain rfl := ResourceClass.binding_injective hplace.2
        refine (descriptorType_eq_of_class hclass hclass').imp_right ?_
        rintro ⟨rfl, hmixed⟩
        exact ⟨hd, hmixed⟩
  · obtain ⟨before, after, -, hc, hok, hd⟩ := h
    rcases place_of_declarationAt hc hd with ⟨hcommand, -⟩ | ⟨-, k, hclass, hd⟩
    · cases hcommand
    · cases htype : v.type with
      | buffer kind body =>
        rw [htype] at hclass
        cases hclass
        exact hd
      | _ =>
        rw [htype] at hbuffer
        cases hbuffer

/-- A run with the uniform block, a buffer, and two samplers that share a table. -/
theorem descriptor_types_of_place_samplers :
    let light : ShaderType := .struct ⟨"Light", []⟩
    let scene : ResourceVariable := ⟨"scene", .buffer .uniform (some light)⟩
    let lights : ResourceVariable := ⟨"lights", .buffer .readOnly (some light)⟩
    let linear : ResourceVariable := ⟨"linear", .sampler .none⟩
    let nearest : ResourceVariable := ⟨"nearest", .sampler .none⟩
    let commands : List Command := [.declareUniform scene, .declareBinding lights,
      .declareBinding linear, .declareBinding nearest]
    (∃ d, d ∈ (run commands (new .standard)).declarations ∧ d.place?.isSome = true ∧
      scene.type.descriptorType?.isSome = true) ∧
    (linear.type.descriptorType? = nearest.type.descriptorType? ∨
      MixesBuffers linear.type nearest.type) ∧
    ∃ d, DeclaresBy .standard commands (.declareBinding lights) lights d ∧
      d.place? = some (0, 2) := by
  intro light scene lights linear nearest commands
  obtain ⟨hdeclared, htypes, hbuffers⟩ := descriptor_types_of_place .standard commands
  have hlights : DeclaresBy .standard commands (.declareBinding lights) lights
      (.bufferBlock ⟨0, .readOnly, ResourceClass.buffers.slot .standard, "Light", "lights"⟩) :=
    ⟨[.declareUniform scene], _, rfl, rfl, rfl, rfl⟩
  have hlinear : DeclaresBy .standard commands (.declareBinding linear) linear
      (.table ⟨ResourceClass.samplers.slot .standard, ⟨"sampler", none⟩⟩) :=
    ⟨[.declareUniform scene, .declareBinding lights], _, rfl, rfl, rfl, rfl⟩
  have hnearest : DeclaresBy .standard commands (.declareBinding nearest) nearest
      (.table ⟨ResourceClass.samplers.slot .standard, ⟨"sampler", none⟩⟩) :=
    ⟨[.declareUniform scene, .declareBinding lights, .declareBinding linear], _, rfl, rfl,
      by unfold nearest linear lights scene light; rfl, rfl⟩
  obtain ⟨d, set, binding, -, -, -, hmem, hplace, -, htype⟩ :=
    hdeclared [] (.declareUniform scene) _ scene rfl rfl rfl
  refine ⟨⟨d, hmem, by rw [hplace]; rfl, htype⟩, ?_, ⟨_, hlights, hbuffers lights _ hlights rfl⟩⟩
  exact (htypes _ _ linear nearest _ _ hlinear hnearest rfl).imp_right And.right

/-- A uniform buffer and a storage buffer of one run lie at the same place. -/
theorem slot_not_always_one_descriptor_type :
    ¬ ∀ sizes commands c c' v v' d d', DeclaresBy sizes commands c v d →
      DeclaresBy sizes commands c' v' d' → d.place? = d'.place? →
        v.type.descriptorType? = v'.type.descriptorType? := by
  intro h
  let light : ShaderType := .struct ⟨"Light", []⟩
  let lights : ResourceVariable := ⟨"lights", .buffer .readOnly (some light)⟩
  let params : ResourceVariable := ⟨"params", .buffer .uniform (some light)⟩
  let commands : List Command := [.declareBinding lights, .declareBinding params]
  have hlights : DeclaresBy .standard commands (.declareBinding lights) lights
      (.bufferBlock ⟨0, .readOnly, ResourceClass.buffers.slot .standard, "Light", "lights"⟩) :=
    ⟨[], [.declareBinding params], rfl, rfl, rfl, rfl⟩
  have hparams : DeclaresBy .standard commands (.declareBinding params) params
      (.bufferBlock ⟨1, .uniform, ResourceClass.buffers.slot .standard, "Light", "params"⟩) :=
    ⟨[.declareBinding lights], [], rfl, rfl, rfl, rfl⟩
  have hsame := h _ _ _ _ _ _ _ _ hlights hparams rfl
  cases hsame

end Emitter

end GlslEmit
