/-
# Storage formats

The format qualifier of a storage image: one, two or four channels, each an integer or float of
32 bits or a normalised byte. A texel outside this grid has no format.

* `Texel.format?` finds the format of a texel;
* `Texel.format?_eq_some_iff`: a format is found exactly for its own texel.
-/
import GlslEmit.ShaderType.Shape

namespace GlslEmit

/-- The channels of a format. -/
inductive Channels where
  | r
  | rg
  | rgba
  deriving DecidableEq

namespace Channels

/-- How many components a texel with these channels has. -/
def count : Channels → UInt8
  | r => 1
  | rg => 2
  | rgba => 4

/-- The channels of a texel with so many components. -/
def ofCount? (components : UInt8) : Option Channels :=
  if components = 1 then some r
  else if components = 2 then some rg
  else if components = 4 then some rgba
  else none

/-- The channels as they begin a format. -/
def text : Channels → String
  | r => "r"
  | rg => "rg"
  | rgba => "rgba"

end Channels

/-- How a format stores one channel. -/
inductive Encoding where
  | uint32
  | int32
  | float32
  /-- A byte that stands for a value from 0 to 1. -/
  | unorm8
  deriving DecidableEq

namespace Encoding

/-- The scalar kind that a shader reads from a channel. -/
def base : Encoding → ScalarKind
  | uint32 => .unsigned
  | int32 => .signed
  | float32 => .float
  | unorm8 => .float

/-- The size of a channel, in bytes. -/
def size : Encoding → UInt8
  | uint32 => 4
  | int32 => 4
  | float32 => 4
  | unorm8 => 1

/-- The encoding of a component of the given kind and size. -/
def ofComponent? (base : ScalarKind) (size : UInt8) : Option Encoding :=
  match base with
  | .unsigned => if size = 4 then some uint32 else none
  | .signed => if size = 4 then some int32 else none
  | .float => if size = 4 then some float32 else if size = 1 then some unorm8 else none
  | .boolean => none

/-- The encoding as it ends a format. -/
def text : Encoding → String
  | uint32 => "32ui"
  | int32 => "32i"
  | float32 => "32f"
  | unorm8 => "8"

end Encoding

/-- A storage format. -/
structure TexelFormat where
  channels : Channels
  encoding : Encoding
  deriving DecidableEq

/-- The format as a layout qualifier, such as `rgba32f`. -/
def TexelFormat.text (f : TexelFormat) : String := f.channels.text ++ f.encoding.text

/-- The format of a texel, if it has one. -/
def Texel.format? (t : Texel) : Option TexelFormat :=
  match Channels.ofCount? t.components, Encoding.ofComponent? t.base t.size with
  | some channels, some encoding => some ⟨channels, encoding⟩
  | _, _ => none

theorem Channels.ofCount?_eq_some_iff {n : UInt8} {c : Channels} :
    ofCount? n = some c ↔ n = c.count := by
  unfold ofCount?
  cases c <;> (repeat' split) <;> simp_all [count]

theorem Encoding.ofComponent?_eq_some_iff {b : ScalarKind} {n : UInt8} {e : Encoding} :
    ofComponent? b n = some e ↔ b = e.base ∧ n = e.size := by
  unfold ofComponent?
  cases e <;> cases b <;> (repeat' split) <;> simp_all [base, size]

/-- A format is found exactly for the texel that has its channels and its encoding. -/
theorem Texel.format?_eq_some_iff {t : Texel} {f : TexelFormat} :
    t.format? = some f ↔ t = ⟨f.encoding.base, f.encoding.size, f.channels.count⟩ := by
  obtain ⟨b, n, k⟩ := t
  obtain ⟨c, e⟩ := f
  have hc := @Channels.ofCount?_eq_some_iff k
  have he := @Encoding.ofComponent?_eq_some_iff b n
  unfold Texel.format?
  simp only [Texel.mk.injEq]
  split
  · next c' e' h₁ h₂ =>
    rw [Option.some.injEq, TexelFormat.mk.injEq]
    constructor
    · rintro ⟨rfl, rfl⟩
      exact ⟨(he.1 h₂).1, (he.1 h₂).2, hc.1 h₁⟩
    · rintro ⟨hb, hn, hk⟩
      exact ⟨Option.some.inj (h₁.symm.trans (hc.2 hk)),
        Option.some.inj (h₂.symm.trans (he.2 ⟨hb, hn⟩))⟩
  · next h =>
    constructor
    · intro h'; cases h'
    · rintro ⟨hb, hn, hk⟩
      exact absurd (he.2 ⟨hb, hn⟩) (h c e (hc.2 hk))

end GlslEmit
