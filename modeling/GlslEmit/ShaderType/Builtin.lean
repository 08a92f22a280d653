/-
# Builtin types

The types that every program knows by name: `void`, scalars, vectors and matrices, samplers,
textures and images of every dimensionality, the incomplete buffers and texel buffers, and the
input attachments.

* `builtin?` looks a name up, and `isBuiltin` says whether it is found.
-/
import GlslEmit.ShaderType.Basic

namespace GlslEmit

/-- Names of the four-byte scalars and vectors: the scalar's word, followed by the component
count from 2 on. -/
def builtinVectors : List (String × ShaderType) :=
  [("bool", .boolean), ("int", .signed), ("uint", .unsigned), ("float", .float)].flatMap
    fun (word, base) =>
      [(word, .numeric (.vector base 1)), (word ++ "2", .numeric (.vector base 2)),
        (word ++ "3", .numeric (.vector base 3)), (word ++ "4", .numeric (.vector base 4))]

/-- Names of the float matrices: `floatCxR` has `C` columns of `R` rows. -/
def builtinMatrices : List (String × ShaderType) :=
  [("float2x2", .numeric (.matrix 2 2)), ("float3x3", .numeric (.matrix 3 3)),
    ("float4x4", .numeric (.matrix 4 4)), ("float2x3", .numeric (.matrix 2 3)),
    ("float3x2", .numeric (.matrix 3 2)), ("float2x4", .numeric (.matrix 2 4)),
    ("float4x2", .numeric (.matrix 4 2)), ("float3x4", .numeric (.matrix 3 4)),
    ("float4x3", .numeric (.matrix 4 3))]

/-- The dimensionalities that builtin images and samplers come in. -/
def Dims.sized : List Dims := [.d1, .d2, .d3, .d1Array, .d2Array, .cube, .cubeArray]

/-- Names of the combined samplers, the sampled images and the incomplete storage images. -/
def builtinImages : List (String × ShaderType) :=
  Dims.sized.flatMap fun dims =>
    [("Sampler" ++ dims.name, .boundSampler dims),
      ("Texture" ++ dims.name, .texture dims ⟨.float, 4, 4⟩),
      ("ITexture" ++ dims.name, .texture dims ⟨.signed, 4, 4⟩),
      ("UTexture" ++ dims.name, .texture dims ⟨.unsigned, 4, 4⟩),
      ("Image" ++ dims.name, .image dims none)]

/-- Names of the kinds without a dimensionality of their own. -/
def builtinResources : List (String × ShaderType) :=
  [("Sampler", .sampler .none), ("SamplerShadow", .sampler .shadow),
    ("Uniform", .buffer .uniform none), ("ROBuffer", .buffer .readOnly none),
    ("RWBuffer", .buffer .readWrite none), ("ROTexels", .texels .readOnly none),
    ("RWTexels", .texels .readWrite none), ("Input", .subpassInput ⟨.float, 4, 4⟩),
    ("IInput", .subpassInput ⟨.signed, 4, 4⟩), ("UInput", .subpassInput ⟨.unsigned, 4, 4⟩)]

/-- Every builtin type with its name. -/
def builtins : List (String × ShaderType) :=
  ("void", .void) :: (builtinVectors ++ builtinMatrices ++ builtinImages ++ builtinResources)

/-- The builtin type of a name. -/
def builtin? (name : String) : Option ShaderType := builtins.lookup name

/-- Whether a name belongs to a builtin type. -/
def isBuiltin (name : String) : Bool := (builtin? name).isSome

/-- No two builtin types share a name. -/
theorem builtins_names_nodup : (builtins.map (·.1)).Nodup := by decide

/-- No builtin type is a struct. -/
theorem builtin?_ne_struct (name : String) (s : StructType) : builtin? name ≠ some (.struct s) := by
  have hnone : ∀ entry ∈ builtins, entry.2.struct?.isNone = true := by decide
  intro h
  obtain ⟨before, after, hbuiltins, -⟩ := List.lookup_eq_some_iff.mp h
  have hmem : (name, .struct s) ∈ builtins := by
    rw [hbuiltins]
    exact List.mem_append_right _ List.mem_cons_self
  cases hnone _ hmem

end GlslEmit
