/-
# One value per stage

A table that holds exactly one value for each pipeline stage.

* `PerStage.get_set_self` and `PerStage.get_set_of_ne`: setting one stage changes that stage alone;
* `PerStage.ext_get`: two tables that agree at every stage are equal;
* `PerStage.modify_comm`: changes of two stages do not depend on their order.
-/
import GlslEmit.Stage.Basic

namespace GlslEmit

/-- One value for each stage of the pipeline. -/
structure PerStage (α : Type) where
  vertex : α
  tessControl : α
  tessEval : α
  geometry : α
  fragment : α

namespace PerStage

variable {α : Type}

/-- The table that holds the same value at every stage. -/
def const (a : α) : PerStage α := ⟨a, a, a, a, a⟩

/-- The value of a stage. -/
def get (table : PerStage α) : Stage → α
  | .vertex => table.vertex
  | .tessControl => table.tessControl
  | .tessEval => table.tessEval
  | .geometry => table.geometry
  | .fragment => table.fragment

/-- Replaces the value of one stage. -/
def set (table : PerStage α) (s : Stage) (a : α) : PerStage α :=
  match s with
  | .vertex => { table with vertex := a }
  | .tessControl => { table with tessControl := a }
  | .tessEval => { table with tessEval := a }
  | .geometry => { table with geometry := a }
  | .fragment => { table with fragment := a }

/-- Applies a function to the value of one stage. -/
def modify (table : PerStage α) (s : Stage) (f : α → α) : PerStage α :=
  table.set s (f (table.get s))

@[simp] theorem get_const (a : α) (s : Stage) : (const a).get s = a := by cases s <;> rfl

@[simp] theorem get_set_self (table : PerStage α) (s : Stage) (a : α) :
    (table.set s a).get s = a := by cases s <;> rfl

theorem get_set_of_ne (table : PerStage α) {s t : Stage} (h : s ≠ t) (a : α) :
    (table.set s a).get t = table.get t := by
  cases s <;> cases t <;> simp_all [get, set]

theorem get_modify (table : PerStage α) (s t : Stage) (f : α → α) :
    (table.modify s f).get t = if s = t then f (table.get t) else table.get t := by
  unfold modify
  split
  · next h => subst h; simp
  · next h => exact get_set_of_ne table h _

theorem ext_get {a b : PerStage α} (h : ∀ s, a.get s = b.get s) : a = b := by
  cases a; cases b
  simp only [mk.injEq]
  exact ⟨h .vertex, h .tessControl, h .tessEval, h .geometry, h .fragment⟩

/-- The values of two stages are modified in either order. -/
theorem modify_comm (table : PerStage α) {s t : Stage} (h : s ≠ t) (f k : α → α) :
    (table.modify s f).modify t k = (table.modify t k).modify s f := by
  apply ext_get
  intro u
  simp only [get_modify]
  by_cases hs : s = u
  · have ht : ¬ t = u := fun ht => h (hs.trans ht.symm)
    rw [if_pos hs, if_pos hs, if_neg ht, if_neg ht]
  · rw [if_neg hs, if_neg hs]

/-- The table with the values of a function. -/
def tabulate (f : Stage → α) : PerStage α :=
  ⟨f .vertex, f .tessControl, f .tessEval, f .geometry, f .fragment⟩

@[simp] theorem get_tabulate (f : Stage → α) (s : Stage) : (tabulate f).get s = f s := by
  cases s <;> rfl

end PerStage

end GlslEmit
