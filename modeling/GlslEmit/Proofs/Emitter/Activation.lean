/-
# Activations of a stage

What a history of accepted commands says about one stage.  Its last activation runs from the last
command that begins the stage to the first end after it; the statements in between are its body.

* `Emitter.lastActivation` lists these statements, `Emitter.hasEnded` says whether the activation
  is over;
* `Statement.linesAfter` are the lines that a statement writes in the light of the statements before
  it, so that a list of statements has its lines without any state;
* each function of a history is followed by what one more command does to it.
-/
import Mathlib.Data.List.DropRight
import GlslEmit.Proofs.Emitter.Transition

namespace GlslEmit

/-! ## Lines of statements -/

namespace Statement

/-- The sub-index that a statement reads. -/
def unpackedIndex? : Statement → Option UInt32
  | unpack index => some index
  | _ => none

/-- Whether a statement opens a block. -/
def opens : Statement → Bool
  | openBlock _ => true
  | _ => false

/-- Whether a statement closes a block. -/
def closes : Statement → Bool
  | closeBlock => true
  | _ => false

/-- The depth behind some statements: one, and one more for every block that is still open. -/
def depthAfter (past : List Statement) : Nat := 1 + past.countP opens - past.countP closes

/-- What a statement writes behind some others.  A sub-index that was read before writes nothing,
and a closing brace stands at the depth of its opener. -/
def linesAfter (past : List Statement) (statement : Statement) : List IndentedLine :=
  match statement.line with
  | .error _ => []
  | .ok line =>
    match statement with
    | unpack index =>
      if index ∈ past.filterMap unpackedIndex? then [] else [⟨depthAfter past, line⟩]
    | closeBlock => [⟨depthAfter past - 1, line⟩]
    | _ => [⟨depthAfter past, line⟩]

variable {past : List Statement}

/-- A statement that is neither an opener nor a closing brace keeps the depth. -/
theorem depthAfter_plain {statement : Statement} (ho : statement.opens = false)
    (hc : statement.closes = false) : depthAfter (past ++ [statement]) = depthAfter past := by
  simp [depthAfter, List.countP_append, ho, hc]

/-- An opener goes one deeper, if the depth before it was positive. -/
theorem depthAfter_openBlock (o : Opener) (h : 0 < depthAfter past) :
    depthAfter (past ++ [openBlock o]) = depthAfter past + 1 := by
  simp only [depthAfter, List.countP_append, List.countP_singleton, opens, closes] at h ⊢
  simp only [if_true, Bool.false_eq_true, if_false]
  omega

theorem depthAfter_closeBlock : depthAfter (past ++ [closeBlock]) = depthAfter past - 1 := by
  simp only [depthAfter, List.countP_append, List.countP_singleton, opens, closes]
  simp only [if_true, Bool.false_eq_true, if_false]
  omega

theorem linesAfter_plain {statement : Statement} {line : Line} (plain : statement.isPlain = true)
    (form : statement.line = .ok line) :
    statement.linesAfter past = [⟨depthAfter past, line⟩] := by
  rw [linesAfter, form]
  cases statement with
  | declare v => rfl
  | assign left operator right => rfl
  | store template value => rfl
  | _ => cases plain

theorem linesAfter_unpack {index : UInt32} (small : index < maxSubIndices) :
    (unpack index).linesAfter past =
      if index ∈ past.filterMap unpackedIndex? then []
      else [⟨depthAfter past, .unpack index⟩] := by
  have form : (unpack index).line = .ok (.unpack index) := if_pos small
  rw [linesAfter, form]

theorem linesAfter_openBlock (o : Opener) :
    (openBlock o).linesAfter past = [⟨depthAfter past, .opener o⟩] := rfl

theorem linesAfter_closeBlock :
    closeBlock.linesAfter past = [⟨depthAfter past - 1, .close⟩] := rfl

end Statement

/-! ## Activations -/

namespace Emitter

namespace Command

/-- Whether a command begins the given stage. -/
def begins (s : Stage) : Command → Bool
  | beginStage t => t = s
  | _ => false

/-- Whether a command ends a stage. -/
def ends : Command → Bool
  | endStage => true
  | _ => false

/-- The statement that a command performs. -/
def statement? : Command → Option Statement
  | perform statement => some statement
  | _ => none

end Command

/-- Whether a stage was ever begun. -/
def hasBegun (s : Stage) (history : List Command) : Bool := history.any (·.begins s)

/-- The commands behind the last one that begins a stage. -/
def sinceBegin (s : Stage) (history : List Command) : List Command :=
  history.rtakeWhile fun c => !c.begins s

/-- Whether the last activation of a stage is over. -/
def hasEnded (s : Stage) (history : List Command) : Bool := (sinceBegin s history).any (·.ends)

/-- The statements of the last activation of a stage. -/
def lastActivation (s : Stage) (history : List Command) : List Statement :=
  ((sinceBegin s history).takeWhile fun c => !c.ends).filterMap Command.statement?

variable (s : Stage) (history : List Command) (c : Command)

theorem hasBegun_iff : hasBegun s history = true ↔ .beginStage s ∈ history := by
  rw [hasBegun, List.any_eq_true]
  constructor
  · rintro ⟨c, hc, hbegins⟩
    cases c with
    | beginStage t =>
      have hts : t = s := of_decide_eq_true hbegins
      rw [← hts]
      exact hc
    | _ => cases hbegins
  · intro hc
    exact ⟨.beginStage s, hc, decide_eq_true rfl⟩

theorem hasBegun_snoc : hasBegun s (history ++ [c]) = (hasBegun s history || c.begins s) := by
  simp [hasBegun]

theorem sinceBegin_snoc :
    sinceBegin s (history ++ [c]) = if c.begins s then [] else sinceBegin s history ++ [c] := by
  rw [sinceBegin, List.rtakeWhile_concat]
  cases c.begins s <;> rfl

theorem hasEnded_snoc :
    hasEnded s (history ++ [c]) = (!c.begins s && (hasEnded s history || c.ends)) := by
  rw [hasEnded, sinceBegin_snoc]
  cases hbegins : c.begins s with
  | true => rfl
  | false => simp [hasEnded]

/-- A prefix without an end is kept whole. -/
theorem takeWhile_snoc {α : Type} (p : α → Bool) (xs : List α) (x : α) :
    (xs ++ [x]).takeWhile p =
      xs.takeWhile p ++ (if xs.all p && p x then [x] else []) := by
  induction xs with
  | nil => cases hx : p x <;> simp [hx]
  | cons y xs ih =>
    cases hy : p y with
    | false => simp [hy]
    | true => simp [hy, ih]

/-- A further command starts the activation anew, or adds its statement while the activation is
not over. -/
theorem lastActivation_snoc :
    lastActivation s (history ++ [c]) =
      if c.begins s then []
      else lastActivation s history ++
        (if hasEnded s history || c.ends then [] else c.statement?.toList) := by
  rw [lastActivation, sinceBegin_snoc]
  cases hbegins : c.begins s with
  | true => rfl
  | false =>
    simp only [Bool.false_eq_true, if_false]
    rw [takeWhile_snoc, List.filterMap_append, lastActivation, hasEnded]
    congr 1
    rw [← List.not_any_eq_all_not]
    cases (sinceBegin s history).any (·.ends) with
    | true => rfl
    | false => cases hends : c.ends <;> cases hst : c.statement? <;> simp [hst]

end Emitter

end GlslEmit
