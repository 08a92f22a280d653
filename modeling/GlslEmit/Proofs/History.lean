/-
# Histories of accepted calls

A machine runs a list of calls, and a refused call does not stop it.  What a run leaves behind is
explained by the calls that were accepted, so two things are kept apart here:

* `Action.accepted` lists the accepted calls of a run, in order;
* `Chain` relates two states by a list of calls, each of which is one step of a relation;
* `chain_accepted`: if every call settles, and is a step where it is accepted, then a run is the
  chain of its accepted calls.

What the calls of a history contribute to a text is `contributions`: each call contributes in the
light of the calls before it.
-/
import Mathlib.Data.List.Induction
import GlslEmit.Proofs.Refusal

namespace GlslEmit

/-! ## Accepted calls -/

namespace Action

variable {C σ ε ρ : Type}

/-- The state after a list of calls, refused ones among them. -/
def runAll (step : C → Action σ ε ρ) (calls : List C) (s : σ) : σ :=
  calls.foldl (fun s c => (step c s).state) s

/-- The calls of a list that are accepted, in order, when they are run one after the other. -/
def accepted (step : C → Action σ ε ρ) : List C → σ → List C
  | [], _ => []
  | c :: rest, s =>
    if (step c s).result.isOk then c :: accepted step rest (step c s).state
    else accepted step rest (step c s).state

variable {step : C → Action σ ε ρ}

theorem accepted_append (cs ds : List C) (s : σ) :
    accepted step (cs ++ ds) s = accepted step cs s ++ accepted step ds (runAll step cs s) := by
  induction cs generalizing s with
  | nil => rfl
  | cons c cs ih =>
    rw [List.cons_append, accepted, accepted, ih]
    by_cases h : (step c s).result.isOk
    · rw [if_pos h, if_pos h, List.cons_append]; rfl
    · rw [if_neg h, if_neg h]; rfl

/-- The accepted calls of a longer run: the last call joins them if it is accepted. -/
theorem accepted_snoc (cs : List C) (c : C) (s : σ) :
    accepted step (cs ++ [c]) s =
      accepted step cs s ++ (if (step c (runAll step cs s)).result.isOk then [c] else []) := by
  rw [accepted_append]
  congr 1

theorem runAll_snoc (cs : List C) (c : C) (s : σ) :
    runAll step (cs ++ [c]) s = (step c (runAll step cs s)).state := by
  rw [runAll, List.foldl_append]
  rfl

theorem accepted_sublist (cs : List C) (s : σ) : (accepted step cs s).Sublist cs := by
  induction cs generalizing s with
  | nil => exact List.Sublist.refl _
  | cons c cs ih =>
    rw [accepted]
    split
    · exact (ih _).cons_cons c
    · exact (ih _).cons c

/-- An accepted call in its place among the accepted calls of a run. -/
theorem accepted_append_cons {before after : List C} {c : C} {s : σ}
    (h : (step c (runAll step before s)).result.isOk = true) :
    accepted step (before ++ c :: after) s =
      accepted step before s ++ c :: accepted step after (step c (runAll step before s)).state := by
  rw [accepted_append, accepted, if_pos h]

/-- What is accepted behind some calls is accepted in the whole run. -/
theorem mem_accepted_append_cons {before after : List C} {c d : C} {s : σ}
    (h : d ∈ accepted step after (step c (runAll step before s)).state) :
    d ∈ accepted step (before ++ c :: after) s := by
  rw [accepted_append, List.mem_append, accepted]
  right
  split
  · exact List.mem_cons_of_mem c h
  · exact h

/-- If calls of some kind are accepted in a run, one of them is accepted first. -/
theorem exists_first_accepted {P : C → Prop} {cs : List C} {s : σ}
    (h : ∃ c ∈ accepted step cs s, P c) :
    ∃ before c after, cs = before ++ c :: after ∧ P c ∧
      (∀ d ∈ accepted step before s, ¬ P d) ∧
      (step c (runAll step before s)).result.isOk = true := by
  induction cs using List.reverseRecOn with
  | nil =>
    obtain ⟨c, hc, -⟩ := h
    cases hc
  | append_singleton cs d ih =>
    by_cases hearlier : ∃ c ∈ accepted step cs s, P c
    · obtain ⟨before, c, after, rfl, hP, hfresh, hok⟩ := ih hearlier
      exact ⟨before, c, after ++ [d], by simp, hP, hfresh, hok⟩
    · -- only the last call is left
      obtain ⟨c, hc, hP⟩ := h
      rw [accepted_snoc, List.mem_append, or_iff_right fun hc => hearlier ⟨c, hc, hP⟩] at hc
      split at hc
      · next hok =>
        obtain rfl := List.mem_singleton.mp hc
        exact ⟨cs, c, [], rfl, hP, fun d hd hPd => hearlier ⟨d, hd, hPd⟩, hok⟩
      · cases hc

/-- A call that is accepted somewhere in a run has a last acceptance. -/
theorem exists_last_accepted {cs : List C} {c : C} {s : σ} (h : c ∈ accepted step cs s) :
    ∃ before after, cs = before ++ c :: after ∧
      (step c (runAll step before s)).result.isOk = true ∧
      c ∉ accepted step after (step c (runAll step before s)).state := by
  induction cs generalizing s with
  | nil => cases h
  | cons d cs ih =>
    by_cases hlater : c ∈ accepted step cs (step d s).state
    · obtain ⟨before, after, rfl, hok, hlast⟩ := ih hlater
      exact ⟨d :: before, after, rfl, hok, hlast⟩
    · -- only the first call is left
      rw [accepted] at h
      split at h
      · next hok =>
        obtain rfl := (List.mem_cons.mp h).resolve_right hlater
        exact ⟨[], cs, rfl, hok, hlater⟩
      · exact absurd h hlater

/-- Two runs stay related if some calls are left out of the second one: a call that is kept leads
from related states to related states, and a call that is left out changes the first state only
within the relation.  Both need to hold only of calls that are allowed where they are accepted. -/
theorem runAll_filter (step : C → Action σ ε ρ) {R : σ → σ → Prop} (keep : C → Bool)
    (allowed : C → Prop)
    (hkept : ∀ {c s t}, R s t → keep c = true → ((step c s).result.isOk = true → allowed c) →
      R (step c s).state (step c t).state)
    (hdropped : ∀ {c s t}, R s t → keep c = false →
      ((step c s).result.isOk = true → allowed c) → R (step c s).state t)
    (cs : List C) {s t : σ} (h : R s t) (hallowed : ∀ c ∈ accepted step cs s, allowed c) :
    R (runAll step cs s) (runAll step (cs.filter keep) t) := by
  induction cs generalizing s t with
  | nil => exact h
  | cons c cs ih =>
    have hc (hok : (step c s).result.isOk = true) : allowed c := by
      apply hallowed
      rw [accepted, if_pos hok]
      exact List.mem_cons_self
    have hrest : ∀ d ∈ accepted step cs (step c s).state, allowed d := by
      intro d hd
      apply hallowed
      rw [accepted]
      split
      · exact List.mem_cons_of_mem _ hd
      · exact hd
    cases hkeep : keep c with
    | true =>
      rw [List.filter_cons_of_pos hkeep]
      exact ih (hkept h hkeep hc) hrest
    | false =>
      rw [List.filter_cons_of_neg (by simp [hkeep])]
      exact ih (hdropped h hkeep hc) hrest

/-- What is given once stays: if a call gives a value only while there is none, then behind a run
there is the value from before the run, or the one that the first giving call of the run gives. -/
theorem first_given_runAll {β : Type} {I : σ → Prop} (value : σ → Option β) (given : C → Option β)
    (hkeep : ∀ c s, I s → I (step c s).state)
    (hvalue : ∀ c s, I s → value (step c s).state = (value s).or (given c))
    (cs : List C) {s : σ} (hs : I s) :
    value (runAll step cs s) = (value s).or (cs.findSome? given) := by
  induction cs generalizing s with
  | nil => exact (Option.or_none).symm
  | cons c cs ih =>
    refine (ih (hkeep c s hs)).trans ?_
    rw [hvalue c s hs, Option.or_assoc, List.findSome?_cons]
    cases given c <;> rfl

end Action

/-! ## Every place of a list -/

/-- What holds at every place of a list, in the light of the entries before the place, holds of a
longer list if it holds at its last place as well. -/
theorem forall_split_snoc_iff {α : Type} {Q : List α → α → Prop} {xs : List α} {y : α} :
    (∀ before x after, xs ++ [y] = before ++ x :: after → Q before x) ↔
      (∀ before x after, xs = before ++ x :: after → Q before x) ∧ Q xs y := by
  constructor
  · intro h
    refine ⟨fun before x after hsplit => h before x (after ++ [y]) ?_, h xs y [] rfl⟩
    rw [hsplit, List.append_assoc, List.cons_append]
  · rintro ⟨hxs, hy⟩ before x after hsplit
    rcases List.eq_nil_or_concat after with rfl | ⟨after', z, rfl⟩
    · obtain ⟨rfl, hx⟩ := List.append_inj' hsplit rfl
      cases hx
      exact hy
    · rw [List.concat_eq_append, ← List.cons_append, ← List.append_assoc] at hsplit
      obtain ⟨hfront, -⟩ := List.append_inj' hsplit rfl
      exact hxs before x after' hfront

/-- The first place of a longer list, and its later places. -/
theorem forall_split_cons_iff {α : Type} {Q : List α → α → Prop} {xs : List α} {y : α} :
    (∀ before x after, y :: xs = before ++ x :: after → Q before x) ↔
      Q [] y ∧ ∀ before x after, xs = before ++ x :: after → Q (y :: before) x := by
  constructor
  · intro h
    exact ⟨h [] y xs rfl, fun before x after hsplit =>
      h (y :: before) x after (congrArg (List.cons y) hsplit)⟩
  · rintro ⟨hy, hxs⟩ before x after hsplit
    cases before with
    | nil =>
      cases hsplit
      exact hy
    | cons z before =>
      cases hsplit
      exact hxs before x after rfl

theorem forall_split_nil {α : Type} {Q : List α → α → Prop} :
    ∀ before x after, [] = before ++ x :: after → Q before x := by
  intro before x after hsplit
  cases before <;> cases hsplit

/-! ## Chains of steps -/

/-- Some steps of a relation, one after the other, with the calls that they answer. -/
inductive Chain {C σ : Type} (T : σ → C → σ → Prop) (s : σ) : List C → σ → Prop
  | refl : Chain T s [] s
  | snoc {cs : List C} {c : C} {t u : σ} : Chain T s cs t → T t c u → Chain T s (cs ++ [c]) u

namespace Chain

variable {C σ : Type} {T : σ → C → σ → Prop} {s t u : σ} {cs ds : List C}

theorem single {c : C} (h : T s c t) : Chain T s [c] t := .snoc .refl h

theorem trans (h₁ : Chain T s cs t) (h₂ : Chain T t ds u) : Chain T s (cs ++ ds) u := by
  induction h₂ with
  | refl => simpa using h₁
  | snoc _ hT ih =>
    rw [← List.append_assoc]
    exact .snoc ih hT

/-- Each call of a chain is one of its steps. -/
theorem exists_step {c : C} (h : Chain T s cs t) (hc : c ∈ cs) : ∃ u v, T u c v := by
  induction h with
  | refl => cases hc
  | snoc _ hT ih =>
    rcases List.mem_append.mp hc with hold | hlast
    · exact ih hold
    · rw [List.mem_singleton.mp hlast]
      exact ⟨_, _, hT⟩

/-- What every step keeps, a chain keeps. -/
theorem keeps {I : σ → Prop} (hkeep : ∀ {s c t}, I s → T s c t → I t) (h : Chain T s cs t)
    (hs : I s) : I t := by
  induction h with
  | refl => exact hs
  | snoc _ hT ih => exact hkeep ih hT

/-- A chain seen through a map of its states and calls. -/
theorem image {D τ : Type} {U : τ → D → τ → Prop} (f : σ → τ) (k : C → D)
    (hU : ∀ {s c t}, T s c t → U (f s) (k c) (f t)) (h : Chain T s cs t) :
    Chain U (f s) (cs.map k) (f t) := by
  induction h with
  | refl => exact .refl
  | snoc _ hT ih =>
    rw [List.map_append]
    exact .snoc ih (hU hT)

end Chain

section Run

variable {C σ ε ρ : Type} {step : C → Action σ ε ρ} {T : σ → C → σ → Prop} {I : σ → Prop}

/-- Each call settles, and what it is accepted with is a step. -/
def Refines (step : C → Action σ ε ρ) (I : σ → Prop) (T : σ → C → σ → Prop) : Prop :=
  ∀ c s, I s → (step c).Settles s (T s c)

/-- A run is the chain of its accepted calls. -/
theorem chain_accepted (hstep : Refines step I T) (hkeep : ∀ {s c t}, I s → T s c t → I t)
    (cs : List C) {s : σ} (hs : I s) :
    Chain T s (Action.accepted step cs s) (Action.runAll step cs s) := by
  -- from the end, since the last call meets the state that the others leave
  induction cs using List.reverseRecOn with
  | nil => exact .refl
  | append_singleton cs c ih =>
    rw [Action.accepted_snoc, Action.runAll_snoc]
    rcases hstep c _ (ih.keeps hkeep hs) with ⟨e, he⟩ | ⟨t, a, log, ha, hT⟩
    · rw [he]
      simpa [Outcome.refused, Except.isOk, Except.toBool] using ih
    · rw [ha]
      exact .snoc ih hT

/-- A chain of steps that are accepted is a run without refusals. -/
theorem Chain.accepted_eq (haccepted : ∀ {s c t}, T s c t → ∃ a log, step c s = .accepted t a log)
    {cs : List C} {s t : σ} (h : Chain T s cs t) :
    Action.accepted step cs s = cs ∧ Action.runAll step cs s = t := by
  induction h with
  | refl => exact ⟨rfl, rfl⟩
  | snoc _ hT ih =>
    obtain ⟨a, log, hstep⟩ := haccepted hT
    rw [Action.accepted_snoc, Action.runAll_snoc, ih.1, ih.2, hstep]
    exact ⟨rfl, rfl⟩

/-- What every step keeps holds after every run. -/
theorem run_keeps (hstep : Refines step I T) (hkeep : ∀ {s c t}, I s → T s c t → I t)
    (cs : List C) {s : σ} (hs : I s) : I (Action.runAll step cs s) :=
  (chain_accepted hstep hkeep cs hs).keeps hkeep hs

end Run

/-! ## Contributions -/

section Contributions

variable {α β : Type}

/-- What the entries of a list contribute after some earlier entries. -/
def contributionsAfter (f : List α → α → List β) (past : List α) : List α → List β
  | [] => []
  | x :: rest => f past x ++ contributionsAfter f (past ++ [x]) rest

/-- What the entries of a list contribute, each in the light of the entries before it. -/
def contributions (f : List α → α → List β) (xs : List α) : List β := contributionsAfter f [] xs

theorem contributionsAfter_append (f : List α → α → List β) (past xs ys : List α) :
    contributionsAfter f past (xs ++ ys) =
      contributionsAfter f past xs ++ contributionsAfter f (past ++ xs) ys := by
  induction xs generalizing past with
  | nil => simp [contributionsAfter]
  | cons x xs ih =>
    rw [List.cons_append, contributionsAfter, contributionsAfter, ih]
    simp [List.append_assoc]

/-- A further entry adds its own contribution at the end. -/
theorem contributions_snoc (f : List α → α → List β) (xs : List α) (x : α) :
    contributions f (xs ++ [x]) = contributions f xs ++ f xs x := by
  rw [contributions, contributionsAfter_append]
  simp [contributions, contributionsAfter]

/-- A function applied to all contributions is applied to each of them. -/
theorem map_contributions {γ : Type} (k : β → γ) (f : List α → α → List β) (xs : List α) :
    (contributions f xs).map k = contributions (fun past x => (f past x).map k) xs := by
  induction xs using List.reverseRecOn with
  | nil => rfl
  | append_singleton xs x ih =>
    rw [contributions_snoc, contributions_snoc, List.map_append, ih]

end Contributions

end GlslEmit
