/-
# Preamble declarations

What all stages of a program share: structs, the uniform block, blocks and tables of resources,
and the push-constant block. A declaration is a value; its text is a function of it.

* `Declaration.text` writes a declaration;
* `preambleText` writes the whole preamble: the version lines, then the declarations in order.
-/
import GlslEmit.Text.Join
import GlslEmit.Spelling.Value
import GlslEmit.Spelling.Resource
import GlslEmit.Resource.Slot
import GlslEmit.Resource.SubIndex

namespace GlslEmit

/-- A member of a declared struct: the word for its type, its name and its array length. -/
structure Field where
  token : String
  name : String
  arraySize : UInt32
  deriving DecidableEq

/-- A block array that holds one buffer binding. -/
structure BufferBlock where
  /-- The number that makes the block's own name unique. -/
  id : UInt32
  kind : BufferKind
  slot : Slot
  /-- The name of the struct that the block holds. -/
  body : String
  /-- The name under which shaders reach the block. -/
  name : String
  deriving DecidableEq

/-- A table that all resources of one spelling share. -/
structure ResourceTable where
  slot : Slot
  spelling : ResourceSpelling
  deriving DecidableEq

/-- A declaration that every stage of a program contains. -/
inductive Declaration where
  | struct (name : String) (fields : List Field)
  /-- The uniform block: the struct that it holds, and the member's name. -/
  | uniformBlock (body name : String)
  | bufferBlock (block : BufferBlock)
  | table (table : ResourceTable)
  /-- The push-constant block with fields for packed sub-indices. -/
  | pushConstants (fields : UInt32)
  deriving DecidableEq

/-- The start of every program: version and required extension. -/
def versionText : String :=
  "/// This file generated by vslc\n" ++
  "#version 450 core\n" ++
  "#extension GL_EXT_scalar_block_layout : require\n" ++
  "\n"

/-- A struct member, on a line of its own. -/
def Field.text (f : Field) : String :=
  "\t" ++ f.token ++ " " ++ f.name ++ arraySuffix f.arraySize ++ ";\n"

/-- The layout of a table, with the qualifier that its type brings along. -/
def layoutText (slot : Slot) (qualifier : Option Qualifier) : String :=
  let extra := match qualifier with
    | some q => ", " ++ q.text
    | none => ""
  "layout(set = " ++ toString slot.set ++ ", binding = " ++ toString slot.binding ++ extra ++ ")"

/-- The storage words of a block. -/
def BufferKind.storageText : BufferKind → String
  | .uniform => "uniform"
  | .readOnly => "readonly buffer"
  | .readWrite => "buffer"

/-- The array mark of a block's member: storage buffers hold an array of any length. -/
def BufferKind.memberSuffix : BufferKind → String
  | .uniform => ""
  | .readOnly => "[]"
  | .readWrite => "[]"

namespace BufferBlock

/-- The name of the block itself. -/
def blockName (b : BufferBlock) : String := "_BUFFER" ++ toString b.id ++ "_"

/-- The text of a block array. -/
def text (b : BufferBlock) : String :=
  layoutText b.slot (some b.kind.packing) ++ " " ++ b.kind.storageText ++ " " ++ b.blockName ++
    " \x7b\n\t" ++ structToken b.body ++ " _data_" ++ b.kind.memberSuffix ++ ";\n\x7d " ++
    b.name ++ "[" ++ toString b.slot.tableSize ++ "];\n\n"

end BufferBlock

namespace ResourceTable

/-- The name of the table. -/
def name (t : ResourceTable) : String := t.spelling.table

/-- The text of a table. -/
def text (t : ResourceTable) : String :=
  layoutText t.slot t.spelling.qualifier ++ " uniform " ++ t.spelling.token ++ " " ++ t.name ++
    "[" ++ toString t.slot.tableSize ++ "];\n\n"

end ResourceTable

/-- The lines for the fields of the push-constant block. -/
def pushConstantFields (count : UInt32) : String :=
  joinTexts ((List.range count.toNat).map fun i =>
    "\tuint " ++ subIndexField (UInt32.ofNat i) ++ ";\n")

/-- The text of a declaration. -/
def Declaration.text : Declaration → String
  | struct name fields =>
    "struct " ++ structToken name ++ " \x7b\n" ++ joinTexts (fields.map Field.text) ++ "\x7d;\n\n"
  | uniformBlock body name =>
    "layout(set = " ++ toString uniformSet ++ ", binding = 0, scalar) uniform _UBUFFER0_ " ++
      "\x7b\n\t" ++ structToken body ++ " " ++ name ++ ";\n\x7d;\n\n"
  | bufferBlock b => b.text
  | table t => t.text
  | pushConstants fields =>
    "layout (push_constant) uniform " ++ pushConstantBlock ++ " \x7b\n" ++
      pushConstantFields fields ++ "\x7d " ++ pushConstantInstance ++ ";\n\n"

/-- The text of the preamble with the given declarations. -/
def preambleText (declarations : List Declaration) : String :=
  versionText ++ joinTexts (declarations.map Declaration.text)

/-- A further declaration adds its own text at the end of the preamble. -/
theorem preambleText_append (declarations : List Declaration) (d : Declaration) :
    preambleText (declarations ++ [d]) = preambleText declarations ++ d.text := by
  simp [preambleText, joinTexts_append, joinTexts, String.append_assoc]

end GlslEmit
