/-
# Where the lines of a body come from

A body is empty when its stage begins, and an accepted statement adds at most one line, at the end.
So each line of the active body was written by one statement, performed since the last beginning,
and the lines before it are those that the body held at that moment.

* `Emitter.Transition.mem_lines`: a line of a body is the line of an accepted statement;
* `Emitter.unpack_mem_of_chain`: a line that reads a sub-index stems from an accepted reading;
* `Emitter.Transition.openBody_cases`: what an accepted command does to the active body;
* `Emitter.WrittenBy` and `Emitter.exists_writtenBy`: the statement of a run that wrote a line.
-/
import GlslEmit.Proofs.Emitter.Region

namespace GlslEmit

namespace Emitter

variable {g g' : Emitter} {c : Command} {s : Stage}

/-- A body that was written to is the active body. -/
theorem openBody?_of_setBody {s : Stage} {b b' : Body} (hb : g.openBody? = some (s, b))
    (hactive : g'.active = g.active) (houtputs : g'.outputs = (g.setBody s b').outputs) :
    g'.openBody? = some (s, b') := by
  rw [openBody?_eq_some_iff, hactive, houtputs, body_setBody, if_pos rfl]
  exact ⟨(openBody?_eq_some_iff.mp hb).1, rfl⟩

/-- A stage that has just begun is active with the fresh body. -/
theorem openBody?_opened : (g.opened s).openBody? = some (s, .fresh) := by
  rw [openBody?_eq_some_iff, opened, body_setBody, if_pos rfl]
  exact ⟨rfl, rfl⟩

/-! ## Lines and accepted statements -/

/-- A line of a body was there before the command, or is the line of the statement that the command
performs. -/
theorem Transition.mem_lines (h : Transition g c g') {b' : Body} {l : IndentedLine}
    (hb' : (g'.outputs.get s).body = some b') (hl : l ∈ b'.lines) :
    (∃ b, (g.outputs.get s).body = some b ∧ l ∈ b.lines) ∨
      ∃ statement, c = .perform statement ∧ statement.line = .ok l.line := by
  by_cases hregion : c.region = .bodies
  · -- a statement that writes adds one line to the active body
    have hwrite {statement : Statement} {t : Stage} {b : Body} {depth : Nat} {line : Line}
        (body : g.openBody? = some (t, b)) (form : statement.line = .ok line)
        (hset : ((g.setBody t (b.write depth line)).outputs.get s).body = some b') :
        (∃ b, (g.outputs.get s).body = some b ∧ l ∈ b.lines) ∨
          ∃ other, Command.perform statement = .perform other ∧ other.line = .ok l.line := by
      rw [body_setBody] at hset
      split at hset
      · next hts =>
        cases hset
        rw [Body.write, List.mem_append, List.mem_singleton] at hl
        rcases hl with hold | rfl
        · exact Or.inl ⟨b, hts ▸ (openBody?_eq_some_iff.mp body).2, hold⟩
        · exact Or.inr ⟨statement, rfl, form⟩
      · exact Or.inl ⟨b', hset, hl⟩
    cases h with
    | beginStage idle =>
      rw [opened, body_setBody] at hb'
      split at hb'
      · cases hb'
        cases hl
      · exact Or.inl ⟨b', hb', hl⟩
    | @endStage t b body flat =>
      rw [ended, body_setBody] at hb'
      split at hb'
      · next hts =>
        cases hb'
        exact Or.inl ⟨b, hts ▸ (openBody?_eq_some_iff.mp body).2, hl⟩
      · exact Or.inl ⟨b', hb', hl⟩
    | writeStatement plain form body => exact hwrite body form hb'
    | unpackFirst small fresh body => exact hwrite body (if_pos small) hb'
    | unpackAgain small known body => exact Or.inl ⟨b', hb', hl⟩
    | enterBlock body => exact hwrite body rfl hb'
    | leaveBlock body nested => exact hwrite body rfl hb'
    | _ => cases hregion
  · rw [(h.sameBodies hregion).body] at hb'
    exact Or.inl ⟨b', hb', hl⟩

/-- A line that reads a sub-index was written by a reading of that sub-index. -/
theorem unpack_of_line {statement : Statement} {index : UInt32}
    (h : statement.line = .ok (.unpack index)) : statement = .unpack index := by
  cases statement with
  | declare v =>
    rw [Statement.line] at h
    split at h <;> cases h
  | store template value =>
    rw [Statement.line] at h
    split at h <;> cases h
  | unpack other =>
    rw [Statement.line] at h
    split at h <;> cases h
    rfl
  | _ => cases h

/-- Every line that reads a sub-index stems from an accepted reading. -/
theorem unpack_mem_of_chain {sizes : TableSizes} {calls : List Command}
    (h : Chain Transition (new sizes) calls g) {b : Body} (hb : (g.outputs.get s).body = some b)
    {l : IndentedLine} (hl : l ∈ b.lines) {index : UInt32} (hline : l.line = .unpack index) :
    .perform (.unpack index) ∈ calls := by
  induction h generalizing b with
  | refl => simp [new] at hb
  | snoc _ hT ih =>
    rcases hT.mem_lines hb hl with ⟨b₀, hb₀, hl₀⟩ | ⟨statement, rfl, hform⟩
    · exact List.mem_append_left _ (ih hb₀ hl₀)
    · rw [hline] at hform
      rw [unpack_of_line hform]
      exact List.mem_append_right _ (List.mem_singleton.mpr rfl)

/-! ## The statement behind a line -/

/-- Behind an accepted command the active body is the fresh one of a stage that has just begun, or
the active body from before, with at most one line more. -/
theorem Transition.openBody_cases (h : Transition g c g') {b' : Body}
    (hb' : g'.openBody? = some (s, b')) :
    (c = .beginStage s ∧ b' = .fresh) ∨
      ∃ b, g.openBody? = some (s, b) ∧ c ≠ .endStage ∧ (∀ t, c ≠ .beginStage t) ∧
        (b' = b ∨ ∃ statement depth line, c = .perform statement ∧ statement.line = .ok line ∧
          b' = b.write depth line) := by
  by_cases hregion : c.region = .bodies
  · cases h with
    | beginStage idle =>
      cases hb'.symm.trans openBody?_opened
      exact Or.inl ⟨rfl, rfl⟩
    | endStage body flat => cases hb'
    | writeStatement plain form body =>
      cases hb'.symm.trans (openBody?_of_setBody body rfl rfl)
      exact Or.inr ⟨_, body, Command.noConfusion, fun _ => Command.noConfusion,
        Or.inr ⟨_, _, _, rfl, form, rfl⟩⟩
    | unpackFirst small fresh body =>
      cases hb'.symm.trans (openBody?_of_setBody body rfl rfl)
      exact Or.inr ⟨_, body, Command.noConfusion, fun _ => Command.noConfusion,
        Or.inr ⟨_, _, _, rfl, if_pos small, rfl⟩⟩
    | unpackAgain small known body =>
      exact Or.inr ⟨b', hb', Command.noConfusion, fun _ => Command.noConfusion, Or.inl rfl⟩
    | enterBlock body =>
      cases hb'.symm.trans (openBody?_of_setBody body rfl rfl)
      exact Or.inr ⟨_, body, Command.noConfusion, fun _ => Command.noConfusion,
        Or.inr ⟨_, _, _, rfl, rfl, rfl⟩⟩
    | leaveBlock body nested =>
      cases hb'.symm.trans (openBody?_of_setBody body rfl rfl)
      exact Or.inr ⟨_, body, Command.noConfusion, fun _ => Command.noConfusion,
        Or.inr ⟨_, _, _, rfl, rfl, rfl⟩⟩
    | _ => cases hregion
  · have hsame := h.sameBodies hregion
    rw [openBody?_eq_some_iff, hsame.active, hsame.body, ← openBody?_eq_some_iff] at hb'
    refine Or.inr ⟨b', hb', ?_, ?_, Or.inl rfl⟩
    · rintro rfl
      exact hregion rfl
    · rintro t rfl
      exact hregion rfl

/-- A statement of a run wrote a line of the body of a stage, behind the lines `before`, and the
stage is still in the same activation behind the run. -/
structure WrittenBy (sizes : TableSizes) (earlier : List Command) (statement : Statement)
    (later : List Command) (s : Stage) (before : List IndentedLine) (l : IndentedLine) : Prop where
  /-- The statement adds the line at the end of the body that is active then. -/
  body : ∃ b, (run earlier (new sizes)).openBody? = some (s, b) ∧ b.lines = before ∧
    (step (.perform statement) (run earlier (new sizes))).state.openBody? =
      some (s, b.write l.depth l.line)
  /-- Behind the statement no stage is begun or ended. -/
  ongoing : ∀ c ∈ Action.accepted step later
    (step (.perform statement) (run earlier (new sizes))).state,
    c ≠ .endStage ∧ ∀ t, c ≠ .beginStage t

/-- A further command that is refused, or begins and ends nothing, belongs to the same
activation. -/
theorem WrittenBy.snoc {sizes : TableSizes} {earlier later : List Command} {statement : Statement}
    {before : List IndentedLine} {l : IndentedLine}
    (h : WrittenBy sizes earlier statement later s before l)
    (hc : (step c (run (earlier ++ .perform statement :: later) (new sizes))).result.isOk = true →
      c ≠ .endStage ∧ ∀ t, c ≠ .beginStage t) :
    WrittenBy sizes earlier statement (later ++ [c]) s before l := by
  refine ⟨h.body, fun d hd => ?_⟩
  rw [Action.accepted_snoc, List.mem_append] at hd
  rcases hd with hold | hlast
  · exact h.ongoing d hold
  · split at hlast
    · next hok =>
      obtain rfl := List.mem_singleton.mp hlast
      rw [run_append_cons] at hc
      exact hc hok
    · cases hlast

/-- Every line of the active body was written by a statement of its activation, when the lines
before it were the whole body. -/
theorem exists_writtenBy {sizes : TableSizes} {calls : List Command} {b : Body}
    (hb : (run calls (new sizes)).openBody? = some (s, b)) :
    ∀ before l after, b.lines = before ++ l :: after →
      ∃ earlier statement later, calls = earlier ++ .perform statement :: later ∧
        statement.line = .ok l.line ∧ WrittenBy sizes earlier statement later s before l := by
  induction calls using List.reverseRecOn generalizing b with
  | nil => cases hb
  | append_singleton calls c ih =>
    have hstate : run (calls ++ [c]) (new sizes) = (step c (run calls (new sizes))).state :=
      Action.runAll_snoc calls c (new sizes)
    rw [hstate] at hb
    -- what the body held before stays written by the same statement
    have hkept {b₀ : Body} (hb₀ : (run calls (new sizes)).openBody? = some (s, b₀))
        (hc : (step c (run calls (new sizes))).result.isOk = true →
          c ≠ .endStage ∧ ∀ t, c ≠ .beginStage t) :
        ∀ before l after, b₀.lines = before ++ l :: after →
          ∃ earlier statement later, calls ++ [c] = earlier ++ .perform statement :: later ∧
            statement.line = .ok l.line ∧ WrittenBy sizes earlier statement later s before l := by
      intro before l after hsplit
      obtain ⟨earlier, statement, later, rfl, hline, hwritten⟩ := ih hb₀ before l after hsplit
      refine ⟨earlier, statement, later ++ [c], ?_, hline, hwritten.snoc hc⟩
      rw [List.append_assoc, List.cons_append]
    have hwell : (run calls (new sizes)).WellFormed := wellFormed_run (wellFormed_new sizes) calls
    rcases step_settles c _ hwell with ⟨e, hrefused⟩ | ⟨g', answer, log, haccepted, hT⟩
    · rw [hrefused] at hb
      refine hkept hb fun hok => ?_
      rw [hrefused] at hok
      cases hok
    · rw [haccepted] at hb
      rcases hT.openBody_cases hb with ⟨-, rfl⟩ | ⟨b₀, hb₀, hend, hbegin, hbody⟩
      · exact forall_split_nil
      · rcases hbody with rfl | ⟨statement, depth, line, rfl, hline, rfl⟩
        · exact hkept hb₀ fun _ => ⟨hend, hbegin⟩
        · refine forall_split_snoc_iff.mpr ⟨hkept hb₀ fun _ => ⟨hend, hbegin⟩, ?_⟩
          refine ⟨calls, statement, [], rfl, hline, ⟨b₀, hb₀, rfl, ?_⟩, fun d hd => by cases hd⟩
          rw [haccepted]
          exact hb

end Emitter

end GlslEmit
