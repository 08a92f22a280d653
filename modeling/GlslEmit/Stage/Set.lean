/-
# Sets of stages

A set of pipeline stages as one membership bit per stage. Its members are listed in pipeline
order, whatever the order of insertion, and `StageSet.bits` packs the five membership bits
into one word, the vertex stage lowest.

* `StageSet.contains_insert`: insertion adds one member and keeps the others;
* `StageSet.contains_ofList`: the set of a list holds exactly the stages of the list;
* `StageSet.mem_toList`: the list holds exactly the members.
-/
import GlslEmit.Stage.Map

namespace GlslEmit

/-- A set of pipeline stages. -/
structure StageSet where
  /-- Whether each stage is a member. -/
  members : PerStage Bool

namespace StageSet

/-- The set without members. -/
def empty : StageSet := ⟨.const false⟩

/-- Adds a stage to the set. -/
def insert (set : StageSet) (s : Stage) : StageSet := ⟨set.members.set s true⟩

/-- Whether a stage is a member. -/
def contains (set : StageSet) (s : Stage) : Bool := set.members.get s

/-- The set of the stages in a list. -/
def ofList (stages : List Stage) : StageSet := stages.foldl insert empty

/-- The members, in pipeline order. -/
def toList (set : StageSet) : List Stage := Stage.all.filter set.contains

/-- Whether the set has no members. -/
def isEmpty (set : StageSet) : Bool := set.toList.isEmpty

/-- Whether every stage is a member. -/
def isAll (set : StageSet) : Bool := Stage.all.all set.contains

/-- The membership bits as one word: stage `s` has the value `2 ^ s.position`. -/
def bits (set : StageSet) : UInt8 :=
  set.toList.foldl (fun word s => word ||| (1 : UInt8) <<< UInt8.ofNat s.position) 0

/-- After an insertion the members are the new stage and the old members. -/
theorem contains_insert (set : StageSet) (s t : Stage) :
    (set.insert s).contains t = (s == t || set.contains t) := by
  by_cases h : s = t
  · subst h; simp [insert, contains]
  · simp [insert, contains, PerStage.get_set_of_ne _ h, h]

/-- The set of the stages in a list holds exactly these stages. -/
theorem contains_ofList (stages : List Stage) (s : Stage) :
    (ofList stages).contains s = true ↔ s ∈ stages := by
  have hfold (set : StageSet) :
      (stages.foldl insert set).contains s = true ↔ s ∈ stages ∨ set.contains s = true := by
    induction stages generalizing set with
    | nil => simp
    | cons t rest ih =>
      rw [List.foldl_cons, ih, contains_insert, Bool.or_eq_true, beq_iff_eq, List.mem_cons,
        @eq_comm _ t s, or_left_comm, or_assoc]
  have hempty : ¬ empty.contains s = true := by simp [empty, contains]
  rw [ofList, hfold, or_iff_left hempty]

/-- The list of members holds exactly the members. -/
theorem mem_toList (set : StageSet) (s : Stage) : s ∈ set.toList ↔ set.contains s = true := by
  simp [toList, Stage.mem_all]

end StageSet

end GlslEmit
