/-
# Placeholders

A template marks the place of a value by an opening and a closing brace side by side. Filling a
template replaces the leftmost such pair alone: the inserted text is not searched again, and
later pairs stay.

* `LeftmostPair` says where the leftmost pair of a text stands; a text that holds a pair has
  exactly one leftmost pair (`exists_leftmostPair` and `LeftmostPair.unique`);
* `fillFirst_isSome_iff`: filling succeeds exactly on the texts that hold a pair;
* `LeftmostPair.fillFirst_eq`: filling keeps what stands before and behind the leftmost pair.
-/
namespace GlslEmit

/-- Puts `value` in the place of the leftmost pair of braces, if there is one. -/
def fillFirst (value : List Char) : List Char → Option (List Char)
  | [] => none
  | [_] => none
  | a :: b :: rest =>
    if a = '{' ∧ b = '}' then some (value ++ rest)
    else (fillFirst value (b :: rest)).map (a :: ·)

/-- The template with `value` in the place of its leftmost pair of braces. -/
def fillPlaceholder? (template value : String) : Option String :=
  (fillFirst value.toList template.toList).map String.ofList

/-- Whether a pair of braces begins at some place of a text. -/
def HoldsPlaceholder (text : List Char) : Prop :=
  ∃ before after, text = before ++ '{' :: '}' :: after

theorem not_holdsPlaceholder_nil : ¬ HoldsPlaceholder [] := by
  rintro ⟨before, after, h⟩
  cases before <;> cases h

/-- A pair begins at the first character of a text, or behind it. -/
theorem holdsPlaceholder_cons {a : Char} {rest : List Char} :
    HoldsPlaceholder (a :: rest) ↔
      (∃ after, a :: rest = '{' :: '}' :: after) ∨ HoldsPlaceholder rest := by
  constructor
  · rintro ⟨before, after, h⟩
    cases before with
    | nil => exact Or.inl ⟨after, h⟩
    | cons c before =>
      cases h
      exact Or.inr ⟨before, after, rfl⟩
  · rintro (⟨after, h⟩ | ⟨before, after, rfl⟩)
    · exact ⟨[], after, h⟩
    · exact ⟨a :: before, after, rfl⟩

/-- The leftmost pair of braces of a text stands between `before` and `after`: no pair begins in
front of it, be it inside of `before` or at the end of `before`. -/
structure LeftmostPair (text before after : List Char) : Prop where
  split : text = before ++ '{' :: '}' :: after
  first : ¬ HoldsPlaceholder (before ++ ['{'])

/-! ## Exactly one leftmost pair -/

/-- The closing brace of the leftmost pair begins no pair, so a text begins with a pair already if
it does so up to the opening brace of its leftmost pair. -/
theorem startsPair_iff {a : Char} {before after : List Char} :
    (∃ rest, a :: (before ++ '{' :: '}' :: after) = '{' :: '}' :: rest) ↔
      ∃ rest, a :: (before ++ ['{']) = '{' :: '}' :: rest := by
  cases before with
  | nil => simp
  | cons b before => simp

theorem exists_leftmostPair {text : List Char} (h : HoldsPlaceholder text) :
    ∃ before after, LeftmostPair text before after := by
  induction text with
  | nil => exact absurd h not_holdsPlaceholder_nil
  | cons a rest ih =>
    by_cases hfirst : ∃ after, a :: rest = '{' :: '}' :: after
    · obtain ⟨after, hsplit⟩ := hfirst
      refine ⟨[], after, hsplit, ?_⟩
      rw [List.nil_append, holdsPlaceholder_cons, not_or]
      exact ⟨by simp, not_holdsPlaceholder_nil⟩
    · obtain ⟨before, after, rfl, hbefore⟩ :=
        ih ((holdsPlaceholder_cons.mp h).resolve_left hfirst)
      refine ⟨a :: before, after, rfl, ?_⟩
      rw [List.cons_append, holdsPlaceholder_cons, not_or, ← startsPair_iff]
      exact ⟨hfirst, hbefore⟩

namespace LeftmostPair

variable {text before after : List Char}

/-- No other pair of the text begins further to the left. -/
theorem length_le (h : LeftmostPair text before after) {before' after' : List Char}
    (hsplit : text = before' ++ '{' :: '}' :: after') : before.length ≤ before'.length := by
  apply Nat.le_of_not_lt
  intro hshorter
  have hpair : before' ++ ['{', '}'] <+: text := ⟨after', by simp [hsplit]⟩
  have hfront : before ++ ['{'] <+: text := ⟨'}' :: after, by simp [h.split]⟩
  have hlength : (before' ++ ['{', '}']).length ≤ (before ++ ['{']).length := by
    simp only [List.length_append, List.length_cons, List.length_nil]
    omega
  obtain ⟨rest, hrest⟩ := List.prefix_of_prefix_length_le hpair hfront hlength
  exact h.first ⟨before', rest, by simp [← hrest]⟩

theorem unique (h : LeftmostPair text before after) {before' after' : List Char}
    (h' : LeftmostPair text before' after') : before' = before ∧ after' = after := by
  have hlength : before'.length = before.length :=
    Nat.le_antisymm (h'.length_le h.split) (h.length_le h'.split)
  obtain ⟨hbefore, hafter⟩ := List.append_inj (h'.split.symm.trans h.split) hlength
  cases hafter
  exact ⟨hbefore, rfl⟩

end LeftmostPair

/-! ## Filling -/

/-- A character at which no pair begins is kept. -/
theorem fillFirst_cons (value : List Char) {a : Char} {rest : List Char}
    (h : ¬ ∃ after, a :: rest = '{' :: '}' :: after) :
    fillFirst value (a :: rest) = (fillFirst value rest).map (a :: ·) := by
  cases rest with
  | nil => rfl
  | cons b rest =>
    refine if_neg ?_
    rintro ⟨rfl, rfl⟩
    exact h ⟨rest, rfl⟩

/-- Filling replaces the leftmost pair and keeps what stands before and behind it. -/
theorem LeftmostPair.fillFirst_eq {text before after : List Char}
    (h : LeftmostPair text before after) (value : List Char) :
    fillFirst value text = some (before ++ value ++ after) := by
  obtain ⟨rfl, hfirst⟩ := h
  induction before with
  | nil => rfl
  | cons a before ih =>
    rw [List.cons_append, holdsPlaceholder_cons, not_or, ← startsPair_iff] at hfirst
    rw [List.cons_append, fillFirst_cons value hfirst.1, ih hfirst.2]
    rfl

theorem fillFirst_eq_none (value : List Char) {text : List Char} (h : ¬ HoldsPlaceholder text) :
    fillFirst value text = none := by
  induction text with
  | nil => rfl
  | cons a rest ih =>
    rw [holdsPlaceholder_cons, not_or] at h
    rw [fillFirst_cons value h.1, ih h.2]
    rfl

/-- Filling succeeds exactly on the texts that hold a pair of braces. -/
theorem fillFirst_isSome_iff (value text : List Char) :
    (fillFirst value text).isSome = true ↔ HoldsPlaceholder text := by
  constructor
  · intro h
    apply Classical.byContradiction
    intro hnone
    rw [fillFirst_eq_none value hnone] at h
    cases h
  · intro h
    obtain ⟨before, after, hpair⟩ := exists_leftmostPair h
    rw [hpair.fillFirst_eq value]
    rfl

instance (text : List Char) : Decidable (HoldsPlaceholder text) :=
  decidable_of_iff _ (fillFirst_isSome_iff [] text)

end GlslEmit
