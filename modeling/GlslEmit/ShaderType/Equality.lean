/-
# Equality of shader types

Two shader types are equal when they have the same kind and equal payloads, members of structs
compared in order by name, type and array length.

* `ShaderType.same_iff`: the structural comparison decides equality.
-/
import GlslEmit.ShaderType.Basic

namespace GlslEmit

namespace ShaderType

mutual

/-- Compares two types by structure. -/
def same : ShaderType → ShaderType → Bool
  | void, void => true
  | numeric a, numeric b => a == b
  | sampler a, sampler b => a == b
  | boundSampler a, boundSampler b => a == b
  | texture a x, texture b y => a == b && x == y
  | image a x, image b y => a == b && x == y
  | buffer a x, buffer b y => a == b && sameBody x y
  | texels a x, texels b y => a == b && x == y
  | subpassInput x, subpassInput y => x == y
  | struct ⟨m, xs⟩, struct ⟨n, ys⟩ => m == n && sameMembers xs ys
  | _, _ => false

/-- Compares two optional buffer bodies. -/
def sameBody : Option ShaderType → Option ShaderType → Bool
  | none, none => true
  | some a, some b => same a b
  | _, _ => false

/-- Compares two lists of members. -/
def sameMembers : List StructMember → List StructMember → Bool
  | [], [] => true
  | ⟨m, a, i⟩ :: xs, ⟨n, b, j⟩ :: ys => m == n && i == j && same a b && sameMembers xs ys
  | _, _ => false

end

mutual

theorem eq_of_same : ∀ a b : ShaderType, same a b = true → a = b
  | void, b, h => by cases b <;> simp_all [same]
  | numeric _, b, h => by cases b <;> simp_all [same]
  | sampler _, b, h => by cases b <;> simp_all [same]
  | boundSampler _, b, h => by cases b <;> simp_all [same]
  | texture _ _, b, h => by cases b <;> simp_all [same]
  | image _ _, b, h => by cases b <;> simp_all [same]
  | buffer _ x, b, h => by
    cases b <;> simp [same] at h
    next _ y => rw [h.1, eq_of_sameBody x y h.2]
  | texels _ _, b, h => by cases b <;> simp_all [same]
  | subpassInput _, b, h => by cases b <;> simp_all [same]
  | struct ⟨_, xs⟩, b, h => by
    cases b <;> simp [same] at h
    next t =>
      obtain ⟨n, ys⟩ := t
      simp at h
      rw [h.1, eq_of_sameMembers xs ys h.2]

theorem eq_of_sameBody : ∀ x y : Option ShaderType, sameBody x y = true → x = y
  | none, y, h => by cases y <;> simp_all [sameBody]
  | some a, y, h => by
    cases y <;> simp [sameBody] at h
    next b => rw [eq_of_same a b h]

theorem eq_of_sameMembers : ∀ xs ys : List StructMember, sameMembers xs ys = true → xs = ys
  | [], ys, h => by cases ys <;> simp_all [sameMembers]
  | ⟨_, a, _⟩ :: xs, ys, h => by
    cases ys <;> simp [sameMembers] at h
    next y ys =>
      obtain ⟨n, b, j⟩ := y
      simp at h
      rw [h.1.1.1, h.1.1.2, eq_of_same a b h.1.2, eq_of_sameMembers xs ys h.2]

end

mutual

theorem same_self : ∀ a : ShaderType, same a a = true
  | void => by simp [same]
  | numeric _ => by simp [same]
  | sampler _ => by simp [same]
  | boundSampler _ => by simp [same]
  | texture _ _ => by simp [same]
  | image _ _ => by simp [same]
  | buffer _ x => by simp [same, sameBody_self x]
  | texels _ _ => by simp [same]
  | subpassInput _ => by simp [same]
  | struct ⟨_, xs⟩ => by simp [same, sameMembers_self xs]

theorem sameBody_self : ∀ x : Option ShaderType, sameBody x x = true
  | none => by simp [sameBody]
  | some a => by simp [sameBody, same_self a]

theorem sameMembers_self : ∀ xs : List StructMember, sameMembers xs xs = true
  | [] => by simp [sameMembers]
  | ⟨_, a, _⟩ :: xs => by simp [sameMembers, same_self a, sameMembers_self xs]

end

/-- The structural comparison decides equality. -/
theorem same_iff (a b : ShaderType) : same a b = true ↔ a = b :=
  ⟨eq_of_same a b, fun h => h ▸ same_self a⟩

instance : DecidableEq ShaderType := fun a b => decidable_of_iff _ (same_iff a b)

end ShaderType

end GlslEmit
