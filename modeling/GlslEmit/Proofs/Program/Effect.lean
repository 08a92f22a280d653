/-
# The effect of a command

Every command to a program does the same three things: it tests the name that it takes, it asks the
emitter for its text, and on an acceptance it takes the name.  Said once for all commands, as one
equation.

* `Command.global?` is the variable that a command declares;
* `Command.checkName` is the test, and `Command.settle` what an acceptance leaves of the program
  around the emitter;
* `step_eq`: a command does what `Command.effect` says;
* `step_of_taken` and `result_of_free`: without the test it would be the emission alone;
* `settled_of_isOk`: what is accepted had a free name and an accepted emission.
-/
import GlslEmit.Proofs.Scope
import GlslEmit.Proofs.Program.Registration

namespace GlslEmit

/-- Only the answer changes. -/
theorem Action.answer_apply {σ ε α β : Type} (x : Action σ ε α) (k : α → β) (s : σ) :
    (x >>= fun a => pure (k a)) s = ⟨(x s).result.map k, (x s).state, (x s).log⟩ := by
  cases hresult : (x s).result with
  | error e =>
    have hx : x s = ⟨.error e, (x s).state, (x s).log⟩ := by rw [← hresult]
    rw [bind_of_error hx]
    rfl
  | ok a =>
    have hx : x s = ⟨.ok a, (x s).state, (x s).log⟩ := by rw [← hresult]
    rw [bind_of_ok hx]
    show (⟨.ok (k a), (x s).state, (x s).log ++ []⟩ : Outcome σ ε β) = _
    rw [List.append_nil]
    rfl

namespace Program

/-! ## What a command takes -/

namespace Command

/-- The variable that a command declares. -/
def global? : Command → Option Variable
  | addVertexInput v => some ⟨v.name, v.type, v.arraySize, .input v.location⟩
  | addFragmentOutput v => some ⟨v.name, v.type, v.arraySize, .output v.location⟩
  | addBinding v => some ⟨v.name, v.type, 1, .binding⟩
  | addUniform v => some ⟨v.name, v.type, 1, .uniform⟩
  | addAttachment v =>
    some ⟨v.name, .subpassInput ⟨v.component, 4, 4⟩, 1, .subpassInput v.index⟩
  | addVarying v _ _ => some v
  | _ => none

/-- Refuses a command whose name is taken. -/
def checkName (c : Command) (p : Program) : Except RegistrationError Unit :=
  match c.addedStruct?, c.global? with
  | some s, _ => p.types.checkName s.name
  | none, some v => p.scope.checkName v.name
  | none, none => .ok ()

/-- The program behind an accepted command, around the emitter that the command leaves. -/
def settle (c : Command) (p : Program) (g : Emitter) : Program where
  types := match c.addedStruct? with
    | some s => ⟨p.types.added.insert s.name (.struct s)⟩
    | none => p.types
  scope := match c.global? with
    | some v => p.scope.extended v
    | none => p.scope
  emitter := g
  highestIndex := largerIndex p.highestIndex c.usedIndex?

/-- The answer of a command whose emission gives an answer. -/
def reply (c : Command) (r : Reply) : Reply :=
  match c.addedStruct? with
  | some s => .type (.struct s)
  | none => r

/-- What an accepted command reports behind its emission. -/
def events (c : Command) : List Event :=
  match c.addedStruct?, c.global? with
  | some s, _ => [.typeRegistered s.name (.struct s)]
  | none, some v => [.globalDeclared v.name v.kind]
  | none, none => []

/-- What a command does. -/
def effect (c : Command) (p : Program) : Outcome Program ProgramError Reply :=
  match c.checkName p with
  | .error e => .refused p (.registration e)
  | .ok () =>
    match Emitter.step c.emission p.emitter with
    | ⟨.error e, g, log⟩ => ⟨.error (.emission e), { p with emitter := g }, log⟩
    | ⟨.ok r, g, log⟩ => .accepted (c.settle p g) (c.reply r) (log ++ c.events)

end Command

/-! ## Every command has its effect -/

section Parts

variable {α β : Type} (p : Program)

theorem emitting_answer (x : Action Emitter EmitError α) (k : α → β) :
    (emitting x >>= fun a => pure (k a)) p = emitting (x >>= fun a => pure (k a)) p := by
  rw [Action.answer_apply, emitting, emitting, Action.within, Action.within, Action.answer_apply]
  cases (x p.emitter).result <;> rfl

/-- A test, an emission, and what follows an accepted one. -/
theorem tested_emission (test : Program → Except RegistrationError Unit)
    (x : Action Emitter EmitError α) (y : α → Action Program ProgramError β) :
    (Action.check (fun p => (test p).mapError .registration) >>= fun _ => emitting x >>= y) p =
      match test p with
      | .error e => .refused p (.registration e)
      | .ok () =>
        match x p.emitter with
        | ⟨.error e, g, log⟩ => ⟨.error (.emission e), { p with emitter := g }, log⟩
        | ⟨.ok a, g, log⟩ =>
          let second := y a { p with emitter := g }
          ⟨second.result, second.state, log ++ second.log⟩ := by
  cases htest : test p with
  | error e =>
    apply Action.bind_refused
    apply Action.check_refused
    rw [htest]
    rfl
  | ok u =>
    rw [Action.bind_of_check (a := ()) (by rw [htest]; rfl)]
    cases hx : x p.emitter with
    | mk result g log =>
      have hemit : emitting x p = ⟨result.mapError .emission, { p with emitter := g }, log⟩ := by
        rw [emitting, Action.within, hx]
      cases result with
      | error e => exact Action.bind_of_error hemit y
      | ok a => exact Action.bind_of_ok hemit y

/-- A global declaration tests its name, emits its text and takes the name. -/
theorem declareGlobal_eq (v : Variable) (x : Action Emitter EmitError α) :
    declareGlobal v x p =
      match p.scope.checkName v.name with
      | .error e => .refused p (.registration e)
      | .ok () =>
        match x p.emitter with
        | ⟨.error e, g, log⟩ => ⟨.error (.emission e), { p with emitter := g }, log⟩
        | ⟨.ok a, g, log⟩ =>
          .accepted { p with scope := p.scope.extended v, emitter := g } a
            (log ++ [.globalDeclared v.name v.kind]) := by
  refine (tested_emission p (fun p => p.scope.checkName v.name) x _).trans ?_
  cases hname : p.scope.checkName v.name with
  | error e => rfl
  | ok u =>
    cases x p.emitter with
    | mk result g log =>
      cases result with
      | error e => rfl
      | ok a =>
        -- the emission left the scope alone, so the name is still free
        have hregister := registerGlobal_accepted (p := { p with emitter := g }) (v := v) hname
        show (⟨((registerGlobal v >>= fun _ => pure a) _).result, _, _⟩ : Outcome _ _ _) = _
        rw [Action.bind_accepted hregister rfl]
        rfl

/-- Only the answer changes. -/
theorem declareGlobal_answer (v : Variable) (x : Action Emitter EmitError α) (k : α → β) :
    (declareGlobal v x >>= fun a => pure (k a)) p =
      declareGlobal v (x >>= fun a => pure (k a)) p := by
  rw [Action.answer_apply, declareGlobal_eq, declareGlobal_eq, Action.answer_apply]
  cases p.scope.checkName v.name with
  | error e => rfl
  | ok u =>
    cases x p.emitter with
    | mk result g log => cases result <;> rfl

variable {c : Command} {v : Variable}

theorem step_of_global (hc : c.global? = some v) :
    step c p = declareGlobal v (Emitter.step c.emission) p := by
  cases c with
  | addVertexInput v => cases hc; exact declareGlobal_answer p _ _ _
  | addFragmentOutput v => cases hc; exact declareGlobal_answer p _ _ _
  | addBinding v => cases hc; exact declareGlobal_answer p _ _ _
  | addUniform v => cases hc; exact declareGlobal_answer p _ _ _
  | addAttachment v => cases hc; exact declareGlobal_answer p _ _ _
  | addVarying v producer consumer => cases hc; exact declareGlobal_answer p _ _ _
  | _ => cases hc

/-- A command that declares a variable adds no struct and uses no sub-index. -/
theorem Command.alone_of_global (hc : c.global? = some v) :
    c.addedStruct? = none ∧ c.usedIndex? = none := by
  cases c with
  | addStruct s => cases hc
  | useIndex index => cases hc
  | _ => exact ⟨rfl, rfl⟩

/-- A command that takes no name is its emission, and may note a sub-index behind it. -/
theorem effect_of_unnamed (hadded : c.addedStruct? = none) (hglobal : c.global? = none) :
    c.effect p =
      match Emitter.step c.emission p.emitter with
      | ⟨.error e, g, log⟩ => ⟨.error (.emission e), { p with emitter := g }, log⟩
      | ⟨.ok r, g, log⟩ =>
        .accepted
          { p with emitter := g, highestIndex := largerIndex p.highestIndex c.usedIndex? } r log := by
  unfold Command.effect Command.checkName
  rw [hadded, hglobal]
  cases Emitter.step c.emission p.emitter with
  | mk result g log =>
    cases result with
    | error e => rfl
    | ok r =>
      simp only [Command.settle, Command.reply, Command.events, hadded, hglobal, List.append_nil]

theorem emitting_eq (x : Action Emitter EmitError Reply) :
    emitting x p =
      match x p.emitter with
      | ⟨.error e, g, log⟩ => ⟨.error (.emission e), { p with emitter := g }, log⟩
      | ⟨.ok r, g, log⟩ => .accepted { p with emitter := g } r log := by
  rw [emitting, Action.within]
  cases x p.emitter with
  | mk result g log => cases result <;> rfl

/-- A command that neither takes a name nor uses a sub-index is its emission. -/
theorem step_of_emission (hstep : step c p = emitting (Emitter.step c.emission) p)
    (hadded : c.addedStruct? = none) (hglobal : c.global? = none) (hused : c.usedIndex? = none) :
    step c p = c.effect p := by
  rw [hstep, effect_of_unnamed p hadded hglobal, emitting_eq, hused]
  rfl

/-- A global declaration has its effect. -/
theorem global_effect (hc : c.global? = some v) : step c p = c.effect p := by
  obtain ⟨hadded, hused⟩ := Command.alone_of_global hc
  rw [step_of_global p hc, declareGlobal_eq]
  simp only [Command.effect, Command.checkName, Command.settle, Command.reply, Command.events,
    hc, hadded, hused, largerIndex]
  cases p.scope.checkName v.name with
  | error e => rfl
  | ok u =>
    cases Emitter.step c.emission p.emitter with
    | mk result g log => cases result <;> rfl

/-- A struct is emitted under a free type name, which is taken then. -/
theorem addStruct_effect (s : StructType) :
    step (.addStruct s) p = (Command.addStruct s).effect p := by
  have hemission : Emitter.step (Command.addStruct s).emission p.emitter = _ :=
    Action.answer_apply (Emitter.declareStruct s) (fun _ => Reply.done) p.emitter
  have htested : Program.addStruct s p = _ :=
    tested_emission p (fun p => p.types.checkName s.name) (Emitter.declareStruct s) fun _ =>
      registerType s.name (.struct s)
  refine (Action.answer_apply (Program.addStruct s) Reply.type p).trans ?_
  unfold Command.effect
  rw [htested, hemission]
  show _ = match p.types.checkName s.name with
    | .error e => _
    | .ok () => _
  cases hname : p.types.checkName s.name with
  | error e => rfl
  | ok u =>
    cases Emitter.declareStruct s p.emitter with
    | mk result g log =>
      cases result with
      | error e => rfl
      | ok u =>
        -- the emission left the type table alone, so the name is still free
        have hregister := registerType_accepted (p := { p with emitter := g }) (.struct s) hname
        dsimp only
        rw [hregister]
        rfl

theorem noteIndex_eq (index : UInt32) :
    noteIndex index p =
      .accepted { p with highestIndex := largerIndex p.highestIndex (some index) } () [] := by
  unfold noteIndex largerIndex
  cases p.highestIndex <;> rfl

/-- A sub-index is noted when the line that reads it was accepted. -/
theorem useIndex_effect (index : UInt32) :
    step (.useIndex index) p = (Command.useIndex index).effect p := by
  have hemission : Emitter.step (Command.useIndex index).emission p.emitter = _ :=
    Action.answer_apply (Emitter.perform (.unpack index)) (fun _ => Reply.done) p.emitter
  refine (Action.answer_apply (Program.useIndex index) (fun _ => Reply.done) p).trans ?_
  rw [effect_of_unnamed p rfl rfl, hemission]
  unfold Program.useIndex
  cases hx : Emitter.perform (.unpack index) p.emitter with
  | mk result g log =>
    have hemit : emitting (Emitter.perform (.unpack index)) p =
        ⟨result.mapError .emission, { p with emitter := g }, log⟩ := by
      rw [emitting, Action.within, hx]
    cases result with
    | error e =>
      rw [Action.bind_of_error hemit]
      rfl
    | ok u =>
      rw [Action.bind_of_ok hemit, noteIndex_eq]
      dsimp only [Outcome.accepted]
      rw [List.append_nil]
      rfl

end Parts

/-- **A command has its effect.**  Whatever the program is, a command tests its name, asks the
emitter for its text, and takes its name only if the text was accepted. -/
theorem step_eq (c : Command) (p : Program) : step c p = c.effect p := by
  cases c with
  | addStruct s => exact addStruct_effect p s
  | beginStage s => exact step_of_emission p (emitting_answer p _ _) rfl rfl rfl
  | endStage => exact step_of_emission p (emitting_answer p _ _) rfl rfl rfl
  | useIndex index => exact useIndex_effect p index
  | direct c => exact step_of_emission p rfl rfl rfl rfl
  | _ => exact global_effect p rfl

/-! ## What follows for one command -/

section Consequences

variable {c : Command} {p : Program}

/-- Under a taken name a command is refused before anything is emitted. -/
theorem step_of_taken {e : RegistrationError} (h : c.checkName p = .error e) :
    step c p = .refused p (.registration e) := by
  rw [step_eq, Command.effect, h]

/-- Under a free name a command is accepted and refused as its emission alone. -/
theorem result_of_free (h : c.checkName p = .ok ()) :
    (step c p).result =
      ((Emitter.step c.emission p.emitter).result.mapError .emission).map c.reply := by
  rw [step_eq, Command.effect, h]
  cases Emitter.step c.emission p.emitter with
  | mk result g log => cases result <;> rfl

/-- An accepted command had a free name and an accepted emission. -/
theorem settled_of_isOk (h : (step c p).result.isOk = true) :
    c.checkName p = .ok () ∧ (Emitter.step c.emission p.emitter).result.isOk = true ∧
      (step c p).state = c.settle p (Emitter.step c.emission p.emitter).state := by
  rw [step_eq, Command.effect] at h ⊢
  cases hname : c.checkName p with
  | error e =>
    rw [hname] at h
    cases h
  | ok u =>
    rw [hname] at h
    cases hemission : Emitter.step c.emission p.emitter with
    | mk result g log =>
      rw [hemission] at h
      cases result with
      | error e => cases h
      | ok r => exact ⟨rfl, rfl, rfl⟩

/-- A refused command changes the emitter at most. -/
theorem state_of_refused (h : ¬ (step c p).result.isOk = true) :
    (step c p).state = { p with emitter := (step c p).state.emitter } := by
  rw [step_eq, Command.effect] at h ⊢
  cases hname : c.checkName p with
  | error e => rfl
  | ok u =>
    rw [hname] at h
    cases hemission : Emitter.step c.emission p.emitter with
    | mk result g log =>
      rw [hemission] at h
      cases result with
      | error e => rfl
      | ok r => exact absurd rfl h

end Consequences

end Program

end GlslEmit
