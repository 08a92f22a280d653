/-
# Refusals without a trace

An operation settles when it does one of two things: it is refused, and then the state is the one
that it was called on and nothing is reported, or it is accepted with a state of a given kind.
Operations that test, write and test again settle only if no test fails after a write, so the
rules below follow how an operation is built:

* `Settles.check`: a test in front may refuse, since nothing has happened yet;
* `Settles.before`: an operation may be followed by one that is always accepted;
* `Settles.within`: an operation on a part settles as an operation on the whole.

Which causes an operation can be refused with is said apart: `FailsOnly` has a rule for each way to
build an operation as well.  So has `Keeps`, by which an operation leaves a part of the state alone,
accepted or refused.
-/
import GlslEmit.Outcome

namespace GlslEmit

namespace Action

variable {σ τ ε δ α β : Type} {s : σ}

/-- At the state `s` the action is refused without a trace, or accepted with a state in `P`. -/
def Settles (x : Action σ ε α) (s : σ) (P : σ → Prop) : Prop :=
  (∃ e, x s = .refused s e) ∨ ∃ t a log, x s = .accepted t a log ∧ P t

/-- At the state `s` the action is accepted with a state in `P`. -/
def Succeeds (x : Action σ ε α) (s : σ) (P : σ → Prop) : Prop :=
  ∃ t a log, x s = .accepted t a log ∧ P t

/-- If the action is refused at the state `s`, the state is as before and nothing is reported. -/
def Atomic (x : Action σ ε α) (s : σ) : Prop :=
  ∀ e, (x s).result = .error e → (x s).state = s ∧ (x s).log = []

theorem Settles.atomic {x : Action σ ε α} {P : σ → Prop} (h : x.Settles s P) : x.Atomic s := by
  intro e he
  rcases h with ⟨e', hx⟩ | ⟨t, a, log, hx, -⟩
  · rw [hx]
    exact ⟨rfl, rfl⟩
  · rw [hx] at he
    cases he

/-- An acceptance leaves a state of the given kind. -/
theorem Settles.of_ok {x : Action σ ε α} {P : σ → Prop} (h : x.Settles s P) {a : α}
    (ha : (x s).result = .ok a) : P (x s).state := by
  rcases h with ⟨e, hx⟩ | ⟨t, b, log, hx, ht⟩
  · rw [hx] at ha
    cases ha
  · rw [hx]
    exact ht

theorem Settles.of_isOk {x : Action σ ε α} {P : σ → Prop} (h : x.Settles s P)
    (ha : (x s).result.isOk = true) : P (x s).state := by
  cases hresult : (x s).result with
  | error e =>
    rw [hresult] at ha
    cases ha
  | ok a => exact h.of_ok hresult

theorem Settles.mono {x : Action σ ε α} {P Q : σ → Prop} (h : x.Settles s P)
    (hPQ : ∀ t, P t → Q t) : x.Settles s Q := by
  rcases h with hx | ⟨t, a, log, hx, ht⟩
  · exact Or.inl hx
  · exact Or.inr ⟨t, a, log, hx, hPQ t ht⟩

/-- Two descriptions of one acceptance hold together. -/
theorem Settles.and {x : Action σ ε α} {P Q : σ → Prop} (hP : x.Settles s P)
    (hQ : x.Settles s Q) : x.Settles s fun t => P t ∧ Q t := by
  rcases hP with hrefused | ⟨t, a, log, ha, ht⟩
  · exact Or.inl hrefused
  · have hok : (x s).result = .ok a := by
      rw [ha]
      rfl
    have hstate := hQ.of_ok hok
    rw [ha] at hstate
    exact Or.inr ⟨t, a, log, ha, ht, hstate⟩

/-! ## How operations are built -/

theorem bind_refused {x : Action σ ε α} {t : σ} {e : ε} (h : x s = .refused t e)
    (f : α → Action σ ε β) : (x >>= f) s = .refused t e :=
  bind_of_error h f

theorem bind_accepted {x : Action σ ε α} {y : α → Action σ ε β} {t u : σ} {a : α} {b : β}
    {log log' : List Event} (hx : x s = .accepted t a log) (hy : y a t = .accepted u b log') :
    (x >>= y) s = .accepted u b (log ++ log') := by
  rw [bind_of_ok hx, hy]
  rfl

/-- A sequence is accepted only if both of its parts are. -/
theorem ok_of_bind {x : Action σ ε α} {f : α → Action σ ε β} {b : β}
    (h : ((x >>= f) s).result = .ok b) :
    ∃ a, (x s).result = .ok a ∧ (f a (x s).state).result = .ok b := by
  cases hx : (x s).result with
  | error e =>
    have hfirst : x s = ⟨.error e, (x s).state, (x s).log⟩ := by rw [← hx]
    rw [bind_of_error hfirst] at h
    cases h
  | ok a =>
    have hfirst : x s = ⟨.ok a, (x s).state, (x s).log⟩ := by rw [← hx]
    rw [bind_of_ok hfirst] at h
    exact ⟨a, rfl, h⟩

theorem check_refused {test : σ → Except ε α} {e : ε} (h : test s = .error e) :
    Action.check test s = .refused s e := by
  rw [Action.check, h]
  rfl

theorem check_accepted {test : σ → Except ε α} {a : α} (h : test s = .ok a) :
    Action.check test s = .accepted s a [] := by
  rw [Action.check, h]
  rfl

/-- A passed test leaves no trace. -/
theorem bind_of_check {test : σ → Except ε α} {a : α} (h : test s = .ok a)
    (f : α → Action σ ε β) : (Action.check test >>= f) s = f a s := by
  rw [bind_of_ok (check_accepted h)]
  rfl

/-- A test refuses before anything has happened. -/
theorem Settles.check {test : σ → Except ε α} {f : α → Action σ ε β} {P : σ → Prop}
    (h : ∀ a, test s = .ok a → (f a).Settles s P) : (Action.check test >>= f).Settles s P := by
  cases htest : test s with
  | error e => exact Or.inl ⟨e, bind_refused (check_refused htest) f⟩
  | ok a =>
    rcases h a htest with ⟨e, hf⟩ | ⟨t, b, log, hf, ht⟩
    · exact Or.inl ⟨e, (bind_of_check htest f).trans hf⟩
    · exact Or.inr ⟨t, b, log, (bind_of_check htest f).trans hf, ht⟩

/-- What follows an accepted operation must not be refused. -/
theorem Settles.before {x : Action σ ε α} {f : α → Action σ ε β} {P Q : σ → Prop}
    (hx : x.Settles s P) (hf : ∀ t a, P t → (f a).Succeeds t Q) : (x >>= f).Settles s Q := by
  rcases hx with ⟨e, hx⟩ | ⟨t, a, log, hx, ht⟩
  · exact Or.inl ⟨e, bind_refused hx f⟩
  · obtain ⟨u, b, log', hy, hu⟩ := hf t a ht
    exact Or.inr ⟨u, b, log ++ log', bind_accepted hx hy, hu⟩

/-- Only the answer changes. -/
theorem Settles.answer {x : Action σ ε α} {P : σ → Prop} (h : x.Settles s P) (f : α → β) :
    (x >>= fun a => pure (f a)).Settles s P :=
  h.before fun t a ht => ⟨t, f a, [], pure_apply (f a) t, ht⟩

/-- An operation on a part of the state settles as an operation on the whole. -/
theorem Settles.within {part : σ → τ} {put : τ → σ → σ} {wrap : ε → δ} {x : Action τ ε α}
    {P : τ → Prop} {Q : σ → Prop} (hx : x.Settles (part s) P) (hput : put (part s) s = s)
    (hQ : ∀ t, P t → Q (put t s)) : (x.within part put wrap).Settles s Q := by
  rcases hx with ⟨e, hx⟩ | ⟨t, a, log, hx, ht⟩
  · left
    refine ⟨wrap e, ?_⟩
    rw [Action.within, hx]
    simp only [Outcome.refused, hput]
    rfl
  · right
    refine ⟨put t s, a, log, ?_, hQ t ht⟩
    rw [Action.within, hx]
    rfl

/-! ## Causes of refusals -/

/-- At the state `s` the action is refused only with causes in `Q`. -/
def FailsOnly (x : Action σ ε α) (s : σ) (Q : ε → Prop) : Prop :=
  ∀ e, (x s).result = .error e → Q e

section FailsOnly

variable {Q : ε → Prop}

theorem FailsOnly.of_accepted {x : Action σ ε α} {t : σ} {a : α} {log : List Event}
    (h : x s = .accepted t a log) : x.FailsOnly s Q := by
  intro e he
  rw [h] at he
  cases he

theorem FailsOnly.of_refused {x : Action σ ε α} {t : σ} {e : ε} (h : x s = .refused t e)
    (he : Q e) : x.FailsOnly s Q := by
  intro e' he'
  rw [h] at he'
  cases he'
  exact he

theorem FailsOnly.congr {x y : Action σ ε α} (h : y.FailsOnly s Q) (hxy : x s = y s) :
    x.FailsOnly s Q := by
  intro e he
  rw [hxy] at he
  exact h e he

/-- A sequence fails by the test in front, or by what follows it. -/
theorem FailsOnly.check {test : σ → Except ε α} {f : α → Action σ ε β}
    (htest : ∀ e, test s = .error e → Q e)
    (hf : ∀ a, test s = .ok a → (f a).FailsOnly s Q) :
    (Action.check test >>= f).FailsOnly s Q := by
  cases h : test s with
  | error e => exact .of_refused (bind_refused (check_refused h) f) (htest e h)
  | ok a => exact (hf a h).congr (bind_of_check h f)

/-- Only the answer changes. -/
theorem FailsOnly.answer {x : Action σ ε α} (h : x.FailsOnly s Q) (f : α → β) :
    (x >>= fun a => pure (f a)).FailsOnly s Q := by
  cases hx : (x s).result with
  | error e =>
    have hfirst : x s = ⟨.error e, (x s).state, (x s).log⟩ := by rw [← hx]
    intro e' he'
    rw [bind_of_error hfirst] at he'
    cases he'
    exact h e hx
  | ok a =>
    have hfirst : x s = ⟨.ok a, (x s).state, (x s).log⟩ := by rw [← hx]
    intro e' he'
    rw [bind_of_ok hfirst] at he'
    cases he'

end FailsOnly

/-! ## What an action leaves alone -/

section Keeps

variable {γ : Type} {part : σ → γ}

/-- Accepted or refused, the action leaves a part of the state as it was. -/
def Keeps (x : Action σ ε α) (part : σ → γ) : Prop := ∀ s, part (x s).state = part s

theorem check_keeps (test : σ → Except ε α) : (check test).Keeps part := fun _ => rfl

theorem Keeps.bind {x : Action σ ε α} {f : α → Action σ ε β} (hx : x.Keeps part)
    (hf : ∀ a, (f a).Keeps part) : (x >>= f).Keeps part := by
  intro s
  have ht := hx s
  cases hfirst : x s with
  | mk result t log =>
    rw [hfirst] at ht
    cases result with
    | error e =>
      rw [bind_of_error hfirst]
      exact ht
    | ok a =>
      rw [bind_of_ok hfirst]
      exact (hf a t).trans ht

/-- Only the answer changes. -/
theorem Keeps.answer {x : Action σ ε α} (hx : x.Keeps part) (f : α → β) :
    (x >>= fun a => pure (f a)).Keeps part :=
  hx.bind fun _ _ => rfl

end Keeps

end Action

end GlslEmit
