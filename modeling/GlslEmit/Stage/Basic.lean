/-
# Pipeline stages

The five programmable stages of the graphics pipeline in pipeline order, with the short
names that generated identifiers carry.

* `a < b` says that stage `a` runs before stage `b`;
* `Stage.ofShortName?` reads exactly the names that `Stage.shortName` writes.
-/
namespace GlslEmit

/-- A programmable stage of the graphics pipeline. -/
inductive Stage where
  | vertex
  | tessControl
  | tessEval
  | geometry
  | fragment
  deriving DecidableEq

namespace Stage

/-- Every stage, in pipeline order. -/
def all : List Stage := [vertex, tessControl, tessEval, geometry, fragment]

/-- The place of a stage in the pipeline, counted from 0. -/
def position : Stage → Nat
  | vertex => 0
  | tessControl => 1
  | tessEval => 2
  | geometry => 3
  | fragment => 4

/-- Pipeline order: the earlier stage is the smaller one. -/
instance : LT Stage := ⟨fun a b => a.position < b.position⟩

instance (a b : Stage) : Decidable (a < b) :=
  inferInstanceAs (Decidable (a.position < b.position))

/-- The name used in generated identifiers and in messages. -/
def shortName : Stage → String
  | vertex => "vert"
  | tessControl => "tesc"
  | tessEval => "tese"
  | geometry => "geom"
  | fragment => "frag"

/-- Reads a short name; any other text is no stage. -/
def ofShortName? (name : String) : Option Stage :=
  all.find? fun s => s.shortName == name

theorem mem_all (s : Stage) : s ∈ all := by cases s <;> decide

/-- Every short name is read back as its stage. -/
theorem ofShortName?_shortName (s : Stage) : ofShortName? s.shortName = some s := by
  cases s <;> decide

end Stage

end GlslEmit
