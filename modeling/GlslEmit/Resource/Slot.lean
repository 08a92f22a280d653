/-
# Descriptor slots

Where a resource lies. Every resource of one class is an element of shared tables in descriptor
set 0, at the binding of its class:

| set | binding | contents                                  |
|-----|---------|-------------------------------------------|
| 0   | 0       | samplers                                  |
| 0   | 1       | storage images                            |
| 0   | 2       | uniform, read-only and read-write buffers |
| 0   | 3       | read-only texel buffers                   |
| 0   | 4       | read-write texel buffers                  |
| 1   | 0       | the uniform block                         |
| 2   | n       | input attachment n                        |

* `ResourceClass.of?` finds the class of a type; sampled textures and combined samplers have none;
* `ResourceClass.binding_injective`: different classes lie at different bindings.
-/
import GlslEmit.ShaderType.Basic

namespace GlslEmit

/-- The classes of resources that have shared tables. -/
inductive ResourceClass where
  | samplers
  | images
  | buffers
  | readOnlyTexels
  | readWriteTexels
  deriving DecidableEq

namespace ResourceClass

/-- Every class, by binding. -/
def all : List ResourceClass := [samplers, images, buffers, readOnlyTexels, readWriteTexels]

/-- The class of a type, if it can lie in a table. -/
def of? : ShaderType → Option ResourceClass
  | .sampler _ => some samplers
  | .image _ _ => some images
  | .buffer _ _ => some buffers
  | .texels .readOnly _ => some readOnlyTexels
  | .texels .readWrite _ => some readWriteTexels
  | _ => none

/-- The binding of a class within descriptor set 0. -/
def binding : ResourceClass → Nat
  | samplers => 0
  | images => 1
  | buffers => 2
  | readOnlyTexels => 3
  | readWriteTexels => 4

/-- Different classes lie at different bindings. -/
theorem binding_injective {a b : ResourceClass} (h : a.binding = b.binding) : a = b := by
  cases a <;> cases b <;> simp_all [binding]

end ResourceClass

/-- How many elements the tables of each class have. -/
structure TableSizes where
  samplers : UInt16
  images : UInt16
  buffers : UInt16
  readOnlyTexels : UInt16
  readWriteTexels : UInt16
  deriving DecidableEq

namespace TableSizes

/-- The sizes that hold unless a program asks for others. -/
def standard : TableSizes := ⟨1024, 256, 512, 128, 128⟩

/-- The size of the tables of one class. -/
def size (sizes : TableSizes) : ResourceClass → UInt16
  | .samplers => sizes.samplers
  | .images => sizes.images
  | .buffers => sizes.buffers
  | .readOnlyTexels => sizes.readOnlyTexels
  | .readWriteTexels => sizes.readWriteTexels

end TableSizes

/-- The descriptor set of the shared tables. -/
def resourceSet : Nat := 0

/-- The descriptor set of the uniform block. -/
def uniformSet : Nat := 1

/-- The descriptor set of the input attachments. -/
def attachmentSet : Nat := 2

/-- The place of a table and its number of elements. -/
structure Slot where
  set : Nat
  binding : Nat
  tableSize : UInt16
  deriving DecidableEq

/-- The slot of a class under the given table sizes. -/
def ResourceClass.slot (c : ResourceClass) (sizes : TableSizes) : Slot :=
  ⟨resourceSet, c.binding, sizes.size c⟩

end GlslEmit
