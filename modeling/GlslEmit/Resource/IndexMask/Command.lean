/-
# Commands to an index mask

Every operation of an index mask as a value, so that a history of calls is a list.

* `IndexMask.step` runs one command and gives its answer and the mask behind it;
* `IndexMask.run` runs a list of commands.
-/
import GlslEmit.Resource.IndexMask

namespace GlslEmit.IndexMask

/-- An operation of an index mask. -/
inductive Command where
  /-- Makes an index a member, and answers whether it is a new one. -/
  | insert (index : UInt32)
  /-- Leaves no members. -/
  | clear
  /-- Asks whether an index is a member. -/
  | contains (index : UInt32)
  deriving DecidableEq

/-- What a command answers. -/
inductive Answer where
  | done
  | flag (b : Bool)

/-- Runs one command. -/
def step : Command → IndexMask → Answer × IndexMask
  | .insert index, mask => (.flag (mask.insert index).1, (mask.insert index).2)
  | .clear, _ => (.done, empty)
  | .contains index, mask => (.flag (mask.contains index), mask)

/-- The mask after a list of commands, each run on the mask that the one before it leaves. -/
def run (commands : List Command) (mask : IndexMask) : IndexMask :=
  commands.foldl (fun mask c => (step c mask).2) mask

end GlslEmit.IndexMask
