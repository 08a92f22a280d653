/-
# Image stores

A store writes its template with the value in the place of the leftmost placeholder.  Braces that
stand elsewhere in the template are kept, and the value is not searched for placeholders.

* `SplitsAt` says which text stands before and behind the leftmost placeholder of a template;
* `line_store` and `line_store_of_none`: the line of a store, and when there is none;
* `Emitter.store_fills_leftmost`: what a store does to the active body.
-/
import GlslEmit.Proofs.Emitter.Rendering

namespace GlslEmit

/-! ## Templates -/

/-- A template that holds a placeholder. -/
def HasPlaceholder (template : String) : Prop :=
  ∃ before after, template = before ++ "\x7b\x7d" ++ after

/-- The leftmost placeholder of a template stands between `before` and `after`: no placeholder
begins in front of it, be it inside of `before` or at the end of `before`. -/
structure SplitsAt (template before after : String) : Prop where
  split : template = before ++ "\x7b\x7d" ++ after
  first : ¬ HasPlaceholder (before ++ "\x7b")

section Template

variable {template before after : String}

theorem eq_split_iff : template = before ++ "\x7b\x7d" ++ after ↔
    template.toList = before.toList ++ '{' :: '}' :: after.toList := by
  rw [← String.toList_inj]
  simp [String.toList_append]

theorem hasPlaceholder_iff : HasPlaceholder template ↔ HoldsPlaceholder template.toList := by
  constructor
  · rintro ⟨before, after, h⟩
    exact ⟨before.toList, after.toList, eq_split_iff.mp h⟩
  · rintro ⟨before, after, h⟩
    refine ⟨String.ofList before, String.ofList after, eq_split_iff.mpr ?_⟩
    simpa using h

instance (template : String) : Decidable (HasPlaceholder template) :=
  decidable_of_iff _ hasPlaceholder_iff.symm

theorem splitsAt_iff : SplitsAt template before after ↔
    LeftmostPair template.toList before.toList after.toList := by
  have hfront : HasPlaceholder (before ++ "\x7b") ↔ HoldsPlaceholder (before.toList ++ ['{']) := by
    rw [hasPlaceholder_iff, String.toList_append]
    rfl
  constructor
  · rintro ⟨hsplit, hfirst⟩
    exact ⟨eq_split_iff.mp hsplit, fun h => hfirst (hfront.mpr h)⟩
  · rintro ⟨hsplit, hfirst⟩
    exact ⟨eq_split_iff.mpr hsplit, fun h => hfirst (hfront.mp h)⟩

/-- A template with a placeholder is split by its leftmost one. -/
theorem HasPlaceholder.exists_splitsAt (h : HasPlaceholder template) :
    ∃ before after, SplitsAt template before after := by
  obtain ⟨before, after, hpair⟩ := exists_leftmostPair (hasPlaceholder_iff.mp h)
  refine ⟨String.ofList before, String.ofList after, splitsAt_iff.mpr ?_⟩
  simpa using hpair

/-- A template is split in one way. -/
theorem SplitsAt.eq (h : SplitsAt template before after) {before' after' : String}
    (h' : SplitsAt template before' after') : before' = before ∧ after' = after := by
  obtain ⟨hbefore, hafter⟩ := (splitsAt_iff.mp h).unique (splitsAt_iff.mp h')
  exact ⟨String.toList_inj.mp hbefore, String.toList_inj.mp hafter⟩

theorem SplitsAt.hasPlaceholder (h : SplitsAt template before after) : HasPlaceholder template :=
  ⟨before, after, h.split⟩

/-- The line of a store. -/
theorem line_store (h : SplitsAt template before after) (value : String) :
    (Statement.store template value).line = .ok (.store (before ++ value ++ after)) := by
  have hfill : fillPlaceholder? template value = some (before ++ value ++ after) := by
    rw [fillPlaceholder?, (splitsAt_iff.mp h).fillFirst_eq, Option.map_some]
    congr 1
    rw [← String.toList_inj]
    simp [String.toList_append]
  rw [Statement.line, hfill]

/-- A template without a placeholder has no line. -/
theorem line_store_of_none (h : ¬ HasPlaceholder template) (value : String) :
    (Statement.store template value).line = .error (.missingPlaceholder template) := by
  have hfill : fillPlaceholder? template value = none := by
    rw [hasPlaceholder_iff] at h
    rw [fillPlaceholder?, fillFirst_eq_none _ h]
    rfl
  rw [Statement.line, hfill]

end Template

/-- As many tabs as the depth says. -/
theorem indentation_eq (n : Nat) : indentation n = String.ofList (List.replicate n '\t') := by
  rw [← String.toList_inj, String.toList_ofList]
  induction n with
  | zero => rfl
  | succ n ih =>
    rw [indentation, String.toList_append, ih]
    rfl

/-! ## Stores -/

namespace Emitter

variable {g : Emitter} {s : Stage} {b : Body}

/-- A statement without a line is refused for that reason while a stage is active. -/
theorem writeStatement_refused {statement : Statement} {e : EmitError}
    (plain : statement.isPlain = true) (form : statement.line = .error e)
    (body : g.openBody? = some (s, b)) : perform statement g = .refused g e := by
  have hline : Action.check (fun _ => statement.line) g = .refused g e := Action.check_refused form
  rw [perform_of_plain plain]
  exact Eq.trans (bind_of_requireActive body _ _) (Action.bind_refused hline _)

/-- **A store fills the leftmost placeholder.**  While a stage is active, a store is accepted
exactly if its template holds a placeholder.  The template is then split by its leftmost
placeholder, in one way, and the store adds one line to the body, one tab deep and one more for each
open block: what stands before the placeholder, the value, and what stands behind it.  Nothing else
changes.  A store without a placeholder is refused with its template and leaves no trace. -/
theorem store_fills_leftmost (hg : g.Reachable) (hs : g.active = some s)
    (template value : String) :
    let outcome := step (.perform (.store template value)) g
    (outcome.result.isOk = true ↔ HasPlaceholder template) ∧
    (HasPlaceholder template → ∃! split : String × String, SplitsAt template split.1 split.2) ∧
    (∀ before after, SplitsAt template before after →
      ∃ b, g.openBody? = some (s, b) ∧
        let written := b.write g.depth (.store (before ++ value ++ after))
        outcome = .accepted (g.setBody s written) .done [] ∧
        written.text = b.text ++ (String.ofList (List.replicate (g.openBlocks + 1) '\t') ++
          (before ++ value ++ after ++ ";") ++ "\n")) ∧
    (¬ HasPlaceholder template → outcome = .refused g (.missingPlaceholder template)) := by
  intro outcome
  obtain ⟨b, hb⟩ := hg.wellFormed.openBody_of_active hs
  have hsplit (before after : String) (h : SplitsAt template before after) :
      outcome = .accepted (g.setBody s (b.write g.depth (.store (before ++ value ++ after))))
        .done [] :=
    Action.bind_accepted (writeStatement_accepted rfl (line_store h value) hb) rfl
  have hrefused (h : ¬ HasPlaceholder template) :
      outcome = .refused g (.missingPlaceholder template) :=
    Action.bind_refused (writeStatement_refused rfl (line_store_of_none h value) hb) _
  refine ⟨⟨fun hok => ?_, fun h => ?_⟩, fun h => ?_, fun before after h => ⟨b, hb, ?_⟩, hrefused⟩
  · by_contra hnone
    rw [hrefused hnone] at hok
    cases hok
  · obtain ⟨before, after, h⟩ := h.exists_splitsAt
    rw [hsplit before after h]
    rfl
  · obtain ⟨before, after, h⟩ := h.exists_splitsAt
    refine ⟨(before, after), h, fun other hother => ?_⟩
    obtain ⟨hbefore, hafter⟩ := h.eq hother
    exact Prod.ext hbefore hafter
  · have hdepth : g.openBlocks + 1 = g.depth := Nat.sub_add_cancel (hg.wellFormed.depth hs)
    refine ⟨hsplit before after h, ?_⟩
    rw [Body.text_write (hg.closed_eq_false hb), hdepth, ← indentation_eq]
    rfl

/-- A store in a block.  Its template holds two placeholders, the left one in braces of its own,
and its value holds one as well; a template whose braces stand the other way round is refused. -/
theorem store_fills_leftmost_nested :
    let g := run [.beginStage .fragment, .perform (.openBlock (.ifThen "lit"))] (new .standard)
    let template := "imageStore(img, f\x7b\x7b\x7d\x7d, \x7b\x7d)"
    let before := "imageStore(img, f\x7b"
    let after := "\x7d, \x7b\x7d)"
    let value := "g(\x7b\x7d)"
    let store : Command := .perform (.store template value)
    SplitsAt template before after ∧ (step store g).result.isOk = true ∧
      (∃ b, g.openBody? = some (.fragment, b) ∧
        let written := b.write g.depth (.store (before ++ value ++ after))
        step store g = .accepted (g.setBody .fragment written) .done [] ∧
        written.text = b.text ++
          "\t\timageStore(img, f\x7bg(\x7b\x7d)\x7d, \x7b\x7d);\n") ∧
      step (.perform (.store "\x7d\x7b" value)) g =
        .refused g (.missingPlaceholder "\x7d\x7b") := by
  intro g template before after value store
  have hg : g.Reachable := ⟨.standard, _, rfl⟩
  have hs : g.active = some .fragment := rfl
  have hsplit : SplitsAt template before after := ⟨by decide, by decide⟩
  have hnone : ¬ HasPlaceholder "\x7d\x7b" := by decide
  obtain ⟨haccepted, -, hfilled, -⟩ := store_fills_leftmost hg hs template value
  obtain ⟨-, -, -, hrefused⟩ := store_fills_leftmost hg hs "\x7d\x7b" value
  obtain ⟨b, hb, hstep, htext⟩ := hfilled before after hsplit
  refine ⟨hsplit, haccepted.mpr hsplit.hasPlaceholder, ⟨b, hb, hstep, ?_⟩, hrefused hnone⟩
  rw [htext]
  congr 1

end Emitter

end GlslEmit
