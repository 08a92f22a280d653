/-
# Emitters

The state of an emission: the preamble that all stages share, the header and the body of each
stage, the stage that is active with its open blocks and its unpacked sub-indices, and the
numbers and names that are used up.

* `Emitter.source?` is the complete text of a stage that was begun and is not active;
* `Emitter.openBody?` is the body that statements go to, if a stage is active.
-/
import Std.Data.TreeSet
import GlslEmit.Outcome
import GlslEmit.Error
import GlslEmit.Stage.Set
import GlslEmit.Source.Declaration
import GlslEmit.Source.Interface
import GlslEmit.Source.Body
import GlslEmit.Resource.IndexMask

namespace GlslEmit

/-- What is written for one stage. The header may be written before the stage is ever begun; the
body is there from the first beginning on. -/
structure StageOutput where
  header : List InterfaceDeclaration
  body : Option Body

/-- The state of an emission. -/
structure Emitter where
  sizes : TableSizes
  /-- The preamble, in order. -/
  declarations : List Declaration
  outputs : PerStage StageOutput
  active : Option Stage
  /-- The depth of the next line: 0 when no stage is active, 1 when no block is open. -/
  depth : Nat
  /-- The sub-indices that the active body has read into local variables. -/
  unpacked : IndexMask
  nextBlock : UInt32
  nextLocation : UInt32
  /-- The names of the declared tables. -/
  tables : Std.TreeSet String
  uniformDeclared : Bool

namespace Emitter

/-- The emitter before the first operation. -/
def new (sizes : TableSizes) : Emitter where
  sizes := sizes
  declarations := []
  outputs := .const ⟨[], none⟩
  active := none
  depth := 0
  unpacked := .empty
  nextBlock := 0
  nextLocation := 0
  tables := ∅
  uniformDeclared := false

/-! ## Questions -/

/-- Whether a stage is active. -/
def isActive (g : Emitter) : Bool := g.active.isSome

/-- Whether a stage was ever begun. -/
def isActivated (g : Emitter) (s : Stage) : Bool := (g.outputs.get s).body.isSome

/-- The stages that were ever begun. -/
def activated (g : Emitter) : StageSet := .ofList (Stage.all.filter g.isActivated)

/-- The number of open blocks in the active body. -/
def openBlocks (g : Emitter) : Nat := g.depth - 1

/-- The text of the preamble. -/
def preamble (g : Emitter) : String := preambleText g.declarations

/-- The active stage with its body. -/
def openBody? (g : Emitter) : Option (Stage × Body) :=
  g.active.bind fun s => (g.outputs.get s).body.map fun b => (s, b)

/-- The complete text of a stage: preamble, header and body. There is none for a stage that was
never begun or that is active. -/
def source? (g : Emitter) (s : Stage) : Option String :=
  if g.active = some s then none
  else (g.outputs.get s).body.map fun b =>
    g.preamble ++ headerText (g.outputs.get s).header ++ b.text

/-- The texts of all stages that have one, in pipeline order. -/
def sources (g : Emitter) : List (Stage × String) :=
  Stage.all.filterMap fun s => (g.source? s).map fun text => (s, text)

/-! ## Writing -/

/-- Adds a declaration to the preamble. -/
def declare (g : Emitter) (d : Declaration) : Emitter :=
  { g with declarations := g.declarations ++ [d] }

/-- Adds a declaration to the header of a stage. -/
def declareIn (g : Emitter) (s : Stage) (d : InterfaceDeclaration) : Emitter :=
  { g with outputs := g.outputs.modify s fun o => { o with header := o.header ++ [d] } }

/-- Replaces the body of a stage. -/
def setBody (g : Emitter) (s : Stage) (b : Body) : Emitter :=
  { g with outputs := g.outputs.modify s fun o => { o with body := some b } }

/-! ## What writing reaches -/

/-- The active body is the body of the active stage. -/
theorem openBody?_eq_some_iff {g : Emitter} {s : Stage} {b : Body} :
    g.openBody? = some (s, b) ↔ g.active = some s ∧ (g.outputs.get s).body = some b := by
  unfold openBody?
  cases g.active with
  | none => simp
  | some a =>
    simp only [Option.bind_some, Option.map_eq_some_iff, Prod.mk.injEq, Option.some.injEq]
    constructor
    · rintro ⟨b', hb, rfl, rfl⟩
      exact ⟨rfl, hb⟩
    · rintro ⟨rfl, hb⟩
      exact ⟨b, hb, rfl, rfl⟩

/-- A written declaration stands in the header of its own stage. -/
theorem header_declareIn (g : Emitter) (s t : Stage) (d : InterfaceDeclaration) :
    ((g.declareIn s d).outputs.get t).header =
      (g.outputs.get t).header ++ (if s = t then [d] else []) := by
  simp only [declareIn, PerStage.get_modify]
  split <;> simp

@[simp] theorem body_declareIn (g : Emitter) (s t : Stage) (d : InterfaceDeclaration) :
    ((g.declareIn s d).outputs.get t).body = (g.outputs.get t).body := by
  simp only [declareIn, PerStage.get_modify]
  split <;> rfl

@[simp] theorem header_setBody (g : Emitter) (s t : Stage) (b : Body) :
    ((g.setBody s b).outputs.get t).header = (g.outputs.get t).header := by
  simp only [setBody, PerStage.get_modify]
  split <;> rfl

/-- Replacing a body changes the body of that stage alone. -/
theorem body_setBody (g : Emitter) (s t : Stage) (b : Body) :
    ((g.setBody s b).outputs.get t).body = if s = t then some b else (g.outputs.get t).body := by
  simp only [setBody, PerStage.get_modify]
  split <;> rfl

end Emitter

end GlslEmit
