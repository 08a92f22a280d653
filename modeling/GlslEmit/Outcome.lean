/-
# Outcomes of operations

An operation takes a state to an outcome: its result or the cause of its refusal, the state
afterwards, and the events that it reports. A refusal hands back a state as well, so that what a
refused operation leaves behind can be spoken of.

* `Action` is an operation with a result; actions run one after the other, and the first refusal
  ends the sequence with the state and the log reached so far;
* `Action.within` runs an action on a part of a larger state.
-/
import GlslEmit.Event

namespace GlslEmit

/-- What one operation does: its result, the state afterwards and the events, in order. -/
structure Outcome (σ ε α : Type) where
  result : Except ε α
  state : σ
  log : List Event

namespace Outcome

variable {σ ε α : Type}

/-- The outcome of a refused operation: the state is as it was, and nothing is reported. -/
def refused (state : σ) (error : ε) : Outcome σ ε α := ⟨.error error, state, []⟩

/-- The outcome of an accepted operation. -/
def accepted (state : σ) (value : α) (log : List Event) : Outcome σ ε α := ⟨.ok value, state, log⟩

end Outcome

/-- An operation on states `σ` with results `α`, refused with causes `ε`. -/
def Action (σ ε α : Type) : Type := σ → Outcome σ ε α

namespace Action

variable {σ τ ε δ α β : Type}

/-- The action that changes nothing and returns a value. -/
protected def pure (a : α) : Action σ ε α := fun s => .accepted s a []

/-- Runs one action and, unless it is refused, a second one on the state that it leaves. -/
protected def bind (x : Action σ ε α) (f : α → Action σ ε β) : Action σ ε β := fun s =>
  let first := x s
  match first.result with
  | .error e => ⟨.error e, first.state, first.log⟩
  | .ok a =>
    let second := f a first.state
    ⟨second.result, second.state, first.log ++ second.log⟩

instance : Monad (Action σ ε) where
  pure := Action.pure
  bind := Action.bind

/-- An action that tests the state and leaves it alone. -/
def check (test : σ → Except ε α) : Action σ ε α := fun s => ⟨test s, s, []⟩

/-- An action that changes the state and cannot be refused. -/
def modify (change : σ → σ) : Action σ ε Unit := fun s => .accepted (change s) () []

/-- Runs an action on a part of a larger state, with its errors named as errors of the whole. -/
def within (part : σ → τ) (put : τ → σ → σ) (wrap : ε → δ) (x : Action τ ε α) :
    Action σ δ α := fun s =>
  let inner := x (part s)
  ⟨inner.result.mapError wrap, put inner.state s, inner.log⟩

/-! ## Running a sequence -/

theorem pure_apply (a : α) (s : σ) :
    (pure a : Action σ ε α) s = .accepted s a [] := rfl

theorem bind_of_error {x : Action σ ε α} {s t : σ} {e : ε} {log : List Event}
    (h : x s = ⟨.error e, t, log⟩) (f : α → Action σ ε β) :
    (x >>= f) s = ⟨.error e, t, log⟩ := by
  simp only [bind, Action.bind, h]

theorem bind_of_ok {x : Action σ ε α} {s t : σ} {a : α} {log : List Event}
    (h : x s = ⟨.ok a, t, log⟩) (f : α → Action σ ε β) :
    (x >>= f) s = ⟨(f a t).result, (f a t).state, log ++ (f a t).log⟩ := by
  simp only [bind, Action.bind, h]

end Action

end GlslEmit
