/-
# Texts in sequence

A document is written by writing its parts one after the other.

* `joinTexts_append`: the parts of two documents in sequence give the two texts in sequence;
* `exists_joinTexts_eq`: each part of a document stands in its text.
-/
namespace GlslEmit

/-- Writes texts one after the other. -/
def joinTexts : List String → String
  | [] => ""
  | text :: rest => text ++ joinTexts rest

/-- The parts of two lists are written one list after the other. -/
theorem joinTexts_append (xs ys : List String) :
    joinTexts (xs ++ ys) = joinTexts xs ++ joinTexts ys := by
  induction xs with
  | nil => simp [joinTexts]
  | cons x xs ih => simp [joinTexts, ih, String.append_assoc]

/-- Each part of a document is written with the parts before it and the parts behind it. -/
theorem exists_joinTexts_eq {xs : List String} {x : String} (h : x ∈ xs) :
    ∃ before after, joinTexts xs = before ++ x ++ after := by
  obtain ⟨ys, zs, rfl⟩ := List.append_of_mem h
  exact ⟨joinTexts ys, joinTexts zs, by rw [joinTexts_append, joinTexts, String.append_assoc]⟩

end GlslEmit
