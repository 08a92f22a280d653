/-
# Tokens of resource types

The GLSL spelling of a resource: a token, and for some kinds a layout qualifier, which is a block
layout for buffers and a storage format for images. A spelling fails for two reasons: the type
has no token at all, or the token needs a format that the texel does not have.

* `ShaderType.resourceSpelling` spells a resource; a missing token is reported before a missing
  format;
* `tableName` names the shared array of all resources with one spelling.
-/
import GlslEmit.ShaderType.Basic
import GlslEmit.Spelling.Format

namespace GlslEmit

/-- Why a type has no spelling as a resource. -/
inductive SpellingError where
  /-- There is no token for the type. -/
  | unmappable
  /-- There is a token, but no format for the texel. -/
  | invalidFormat
  deriving DecidableEq

/-- A layout qualifier that belongs to the type of a resource. -/
inductive Qualifier where
  /-- Blocks aligned as uniforms. -/
  | std140
  /-- Blocks aligned as storage buffers. -/
  | std430
  | format (f : TexelFormat)
  deriving DecidableEq

/-- The qualifier as it stands in a layout. -/
def Qualifier.text : Qualifier → String
  | std140 => "std140"
  | std430 => "std430"
  | format f => f.text

/-- The alignment of a kind of buffer. -/
def BufferKind.packing : BufferKind → Qualifier
  | .uniform => .std140
  | .readOnly => .std430
  | .readWrite => .std430

/-- The GLSL spelling of a resource. A buffer is spelled by its block, so that its token is a
single blank. -/
structure ResourceSpelling where
  token : String
  qualifier : Option Qualifier
  deriving DecidableEq

/-- The ending of an image or sampler token. -/
def Dims.tokenEnding? : Dims → Option String
  | .d1 => some "1D"
  | .d2 => some "2D"
  | .d3 => some "3D"
  | .d1Array => some "1DArray"
  | .d2Array => some "2DArray"
  | .cube => some "Cube"
  | .cubeArray => some "CubeArray"
  | .none => Option.none
  | .shadow => Option.none

/-- The letter in front of an image token that tells how its texels are read. -/
def ScalarKind.texelLetter : ScalarKind → String
  | .unsigned => "u"
  | .signed => "i"
  | .float => ""
  | .boolean => ""

/-- The token of an input attachment; there are no boolean attachments. -/
def ScalarKind.attachmentToken? : ScalarKind → Option String
  | .boolean => none
  | base => some (base.texelLetter ++ "subpassInput")

/-- The format of a texel that has to have one. -/
def formatOf (texel : Option Texel) : Except SpellingError TexelFormat :=
  match texel.bind (·.format?) with
  | some f => .ok f
  | none => .error .invalidFormat

/-- The spelling of a type as a resource. -/
def ShaderType.resourceSpelling : ShaderType → Except SpellingError ResourceSpelling
  | .sampler .none => .ok ⟨"sampler", none⟩
  | .sampler .shadow => .ok ⟨"samplerShadow", none⟩
  | .sampler _ => .error .unmappable
  | .boundSampler dims =>
    match dims.tokenEnding? with
    | none => .error .unmappable
    | some ending => .ok ⟨"sampler" ++ ending, none⟩
  | .texture dims texel =>
    match dims.tokenEnding? with
    | none => .error .unmappable
    | some ending => .ok ⟨texel.base.texelLetter ++ "texture" ++ ending, none⟩
  | .image dims texel =>
    match dims.tokenEnding?, formatOf texel with
    | none, _ => .error .unmappable
    | some _, .error e => .error e
    | some ending, .ok f =>
      let letter := texel.elim "" (·.base.texelLetter)
      .ok ⟨letter ++ "image" ++ ending, some (.format f)⟩
  | .buffer kind _ => .ok ⟨" ", some kind.packing⟩
  | .texels .readOnly _ => .ok ⟨"textureBuffer", none⟩
  | .texels .readWrite texel =>
    match formatOf texel with
    | .error e => .error e
    | .ok f => .ok ⟨"imageBuffer", some (.format f)⟩
  | .subpassInput texel =>
    match texel.base.attachmentToken? with
    | none => .error .unmappable
    | some token => .ok ⟨token, none⟩
  | .void => .error .unmappable
  | .numeric _ => .error .unmappable
  | .struct _ => .error .unmappable

/-- The name of the shared array of resources with a token and a qualifier. Images of one token
but of different formats lie in different tables. -/
def tableName (token : String) (qualifier : Option String) : String :=
  match qualifier with
  | some q => "_" ++ token ++ "_" ++ q ++ "_TABLE_"
  | none => "_" ++ token ++ "_TABLE_"

/-- The name of the shared array of resources with this spelling. -/
def ResourceSpelling.table (s : ResourceSpelling) : String :=
  tableName s.token (s.qualifier.map (·.text))

end GlslEmit
