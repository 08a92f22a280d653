/-
# Shared tables are declared once

A binding that is no buffer needs the table of its spelling.  The emitter remembers the names of
its tables apart from the preamble, and these two always agree: a remembered name has one
declaration, and any other name has none.  So the first accepted binding that needs a table declares
it, and every later one finds the declaration that it would have written itself.

* `Emitter.Remembers` is the agreement, kept by every transition;
* `Emitter.IsFirstNeed` is the place of the first accepted binding that needs a table;
* `Emitter.shareTable_of_declared`: a binding whose table is declared changes nothing;
* `Emitter.table_declared_once` puts these together.
-/
import GlslEmit.Proofs.Emitter.Rendering
import GlslEmit.Proofs.Emitter.Declaration
import GlslEmit.Proofs.Resource.Table

namespace GlslEmit

/-- The table that a declaration declares. -/
def Declaration.table? : Declaration → Option ResourceTable
  | table t => some t
  | _ => none

/-- The declared tables of a name. -/
def tablesNamed (name : String) (declarations : List Declaration) : List ResourceTable :=
  (declarations.filterMap Declaration.table?).filter fun t => t.name = name

theorem tablesNamed_append (name : String) (declarations declarations' : List Declaration) :
    tablesNamed name (declarations ++ declarations') =
      tablesNamed name declarations ++ tablesNamed name declarations' := by
  rw [tablesNamed, List.filterMap_append, List.filter_append]
  rfl

theorem tablesNamed_table (name : String) (t : ResourceTable) :
    tablesNamed name [.table t] = if t.name = name then [t] else [] := by
  simp [tablesNamed, Declaration.table?, List.filter_cons]

namespace Emitter

variable {sizes : TableSizes} {commands before after : List Command}
variable {g g' : Emitter} {c : Command} {v w : ResourceVariable} {name : String}

/-! ## The remembered names -/

/-- The declarations of tables are those of the remembered names, one for each. -/
def Remembers (g : Emitter) : Prop :=
  ∀ name, (tablesNamed name g.declarations).length = if g.tables.contains name then 1 else 0

/-- A declaration of something else. -/
theorem Remembers.declare (hg : g.Remembers) {d : Declaration} (hd : d.table? = none) :
    (g.declare d).Remembers := by
  intro name
  have hother : tablesNamed name [d] = [] := by simp [tablesNamed, hd]
  rw [Emitter.declare, tablesNamed_append, hother, List.append_nil]
  exact hg name

/-- The declaration of a table whose name is not remembered yet. -/
theorem Remembers.declareTable (hg : g.Remembers) {t : ResourceTable}
    (fresh : ¬ g.tables.contains t.name = true) :
    Remembers { g.declare (.table t) with tables := g.tables.insert t.name } := by
  intro name
  have hold := hg name
  simp only [Emitter.declare, tablesNamed_append, tablesNamed_table, List.length_append,
    Std.TreeSet.contains_insert]
  by_cases hname : t.name = name
  · subst hname
    rw [if_neg fresh] at hold
    simp [hold]
  · simpa [hname] using hold

theorem Transition.remembers (h : Transition g c g') (hg : g.Remembers) : g'.Remembers := by
  cases h with
  | declareStruct form =>
    obtain ⟨fields, -, rfl⟩ := structDeclaration_eq_ok form
    exact hg.declare rfl
  | declareUniform first form =>
    obtain ⟨s, -, rfl⟩ := uniformDeclaration_eq_ok form
    exact hg.declare (d := .uniformBlock s.name _) rfl
  | declareBlock form => exact hg.declare (d := .bufferBlock _) rfl
  | declareTable form fresh => exact hg.declareTable fresh
  | declareIndices small => exact hg.declare rfl
  | _ => exact hg

theorem remembers_run (sizes : TableSizes) (commands : List Command) :
    (run commands (new sizes)).Remembers := by
  refine (chain_run (wellFormed_new sizes) commands).keeps (fun hg hT => hT.remembers hg) ?_
  intro name
  simp [new, tablesNamed]

/-- A name is remembered exactly if an accepted command needed its table. -/
theorem contains_tables_iff (sizes : TableSizes) (commands : List Command) (name : String) :
    (run commands (new sizes)).tables.contains name = true ↔
      ∃ c ∈ Action.accepted step commands (new sizes), c.table? = some name := by
  rw [(reflects_run sizes commands).preamble.tables, List.mem_filterMap]

/-! ## The first need -/

/-- The command `v` is the first accepted one of a run that needs the table of the given name. -/
structure IsFirstNeed (sizes : TableSizes) (name : String) (commands before : List Command)
    (v : ResourceVariable) (after : List Command) : Prop where
  split : commands = before ++ .declareBinding v :: after
  needs : Command.table? (.declareBinding v) = some name
  accepted : (step (.declareBinding v) (run before (new sizes))).result.isOk = true
  first : ∀ c ∈ Action.accepted step before (new sizes), c.table? ≠ some name

theorem exists_firstNeed
    (h : ∃ c ∈ Action.accepted step commands (new sizes), c.table? = some name) :
    ∃ before v after, IsFirstNeed sizes name commands before v after := by
  obtain ⟨before, c, after, hsplit, hneeds, hfirst, hok⟩ :=
    Action.exists_first_accepted (P := fun c : Command => c.table? = some name) h
  cases c with
  | declareBinding v => exact ⟨before, v, after, hsplit, hneeds, hok, hfirst⟩
  | _ => cases hneeds

theorem table?_eq_some_iff :
    Command.table? (.declareBinding v) = some name ↔
      v.type.isBuffer = false ∧ ∃ s, v.type.resourceSpelling = .ok s ∧ s.table = name := by
  rw [Command.table?]
  cases v.type.isBuffer with
  | true => simp
  | false => cases v.type.resourceSpelling <;> simp [Except.toOption]

/-- A binding whose table is not declared yet declares it. -/
theorem Transition.declares_table (h : Transition g (.declareBinding v) g')
    (needs : Command.table? (.declareBinding v) = some name)
    (fresh : ¬ g.tables.contains name = true) :
    ∃ t, bindingForm g.sizes g.nextBlock v = .ok (.table t) ∧ t.name = name ∧
      g'.declarations = g.declarations ++ [.table t] := by
  cases h with
  | declareBlock form =>
    have hbuffer := (table?_eq_some_iff.mp needs).1
    rw [isBuffer_of_block form] at hbuffer
    cases hbuffer
  | @declareTable _ t form _ =>
    have hname : t.name = name := Option.some.inj ((table?_of_form form).2.symm.trans needs)
    exact ⟨t, form, hname, rfl⟩
  | @shareTable _ t form declared =>
    have hname : t.name = name := Option.some.inj ((table?_of_form form).2.symm.trans needs)
    exact absurd (hname ▸ declared) fresh

/-- A binding whose table is declared is accepted, writes nothing and reports that it shares the
table; what it would have declared is the declared table. -/
theorem shareTable_of_declared {id : UInt32} {t : ResourceTable}
    (form : bindingForm g.sizes id v = .ok (.table t)) (declared : g.tables.contains t.name = true)
    (needs : Command.table? (.declareBinding w) = some t.name) :
    step (.declareBinding w) g = .accepted g .done [.tableReused w.name t.name] ∧
      (∀ id', bindingForm g.sizes id' w = .ok (.table t)) ∧
      ResourceClass.of? w.type = ResourceClass.of? v.type := by
  obtain ⟨hbuffer, s, hspelling, hname⟩ := table?_eq_some_iff.mp needs
  have hsame := bindingForm_of_same_table form hbuffer hspelling hname
  refine ⟨?_, fun id' => (hsame id').1, (hsame 0).2⟩
  exact Action.bind_accepted (shareTable_accepted (hsame g.nextBlock).1 declared) rfl

/-- An emitter that lacks the table would write its text. -/
theorem preamble_of_undeclared {t : ResourceTable}
    (form : bindingForm g.sizes g.nextBlock w = .ok (.table t))
    (fresh : ¬ g.tables.contains t.name = true) :
    (step (.declareBinding w) g).state.preamble = g.preamble ++ t.text := by
  have hstep : step (.declareBinding w) g = _ :=
    Action.bind_accepted (declareTable_accepted form fresh) rfl
  rw [hstep]
  exact preambleText_append _ _

/-- The first accepted binding that needs a table declares it. -/
theorem IsFirstNeed.declares (h : IsFirstNeed sizes name commands before v after) :
    ∃ t, bindingForm sizes (run before (new sizes)).nextBlock v = .ok (.table t) ∧
      t.name = name ∧ (step (.declareBinding v) (run before (new sizes))).state.declarations =
        (run before (new sizes)).declarations ++ [.table t] := by
  have hwell : (run before (new sizes)).WellFormed := wellFormed_run (wellFormed_new sizes) before
  have hT := (step_settles (.declareBinding v) _ hwell).of_isOk h.accepted
  have hfresh : ¬ (run before (new sizes)).tables.contains name = true := by
    rw [contains_tables_iff]
    rintro ⟨c, hc, hneeds⟩
    exact h.first c hc hneeds
  have hsizes : (run before (new sizes)).sizes = sizes :=
    (reflects_run sizes before).preamble.sizes_eq
  obtain ⟨t, form, hname, hadded⟩ := hT.declares_table h.needs hfresh
  rw [hsizes] at form
  exact ⟨t, form, hname, hadded⟩

/-- Behind its first need a table is declared in its place, and there alone. -/
theorem IsFirstNeed.declared (h : IsFirstNeed sizes name commands before v after)
    {t : ResourceTable} (hname : t.name = name)
    (hadded : (step (.declareBinding v) (run before (new sizes))).state.declarations =
      (run before (new sizes)).declarations ++ [.table t]) (earlier : List Command) :
    let k := run (before ++ .declareBinding v :: earlier) (new sizes)
    k.sizes = sizes ∧ k.tables.contains name = true ∧
      (∃ rest, k.declarations = (run before (new sizes)).declarations ++ .table t :: rest) ∧
      tablesNamed name k.declarations = [t] := by
  intro k
  have hwell : (run before (new sizes)).WellFormed := wellFormed_run (wellFormed_new sizes) before
  have hreflects := reflects_run sizes (before ++ .declareBinding v :: earlier)
  have hcontains : k.tables.contains name = true := by
    rw [contains_tables_iff]
    refine ⟨.declareBinding v, ?_, h.needs⟩
    rw [Action.accepted_append_cons h.accepted]
    exact List.mem_append_right _ List.mem_cons_self
  have hgrown : ∃ rest, k.declarations =
      (run before (new sizes)).declarations ++ .table t :: rest := by
    have hchain := chain_run (step_wellFormed hwell (.declareBinding v)) earlier
    obtain ⟨rest, hrest⟩ := exists_declarations_eq hchain
    refine ⟨rest, ?_⟩
    rw [← run_append_cons, hadded, List.append_assoc] at hrest
    exact hrest
  refine ⟨hreflects.preamble.sizes_eq, hcontains, hgrown, ?_⟩
  have hlength := remembers_run sizes (before ++ .declareBinding v :: earlier) name
  rw [if_pos hcontains] at hlength
  obtain ⟨u, hu⟩ := List.length_eq_one_iff.mp hlength
  have hmem : t ∈ tablesNamed name k.declarations := by
    obtain ⟨rest, hrest⟩ := hgrown
    rw [hrest]
    simp [tablesNamed, Declaration.table?, hname]
  rw [hu, List.mem_singleton] at hmem
  rw [hu, hmem]

/-- A table whose name is remembered is declared as any binding of that name would declare it. -/
theorem table_mem_of_contains {id : UInt32} {t : ResourceTable}
    (form : bindingForm sizes id v = .ok (.table t))
    (declared : (run commands (new sizes)).tables.contains t.name = true) :
    .table t ∈ (run commands (new sizes)).declarations := by
  obtain ⟨hbuffer, hspelling⟩ := spelling_of_table form
  obtain ⟨before, w, after, hfirst⟩ :=
    exists_firstNeed ((contains_tables_iff sizes commands t.name).mp declared)
  obtain ⟨u, form', hname, hadded⟩ := hfirst.declares
  have hsame := (bindingForm_of_same_table form' hbuffer hspelling hname.symm id).1
  obtain rfl : u = t := BindingForm.table.inj (Except.ok.inj (hsame.symm.trans form))
  obtain ⟨-, -, ⟨rest, hrest⟩, -⟩ := hfirst.declared hname hadded after
  rw [← hfirst.split] at hrest
  rw [hrest]
  simp

/-! ## Declared once -/

/-- **Shared tables are declared once.**  A run leaves no declaration of a table that no accepted
binding needed.  Otherwise the first accepted binding that needs the table writes its declaration
behind the preamble that it finds, and from then on this is the only declaration of that name.  Any
further binding of that name is accepted, changes nothing and reports that it shares the table; the
declaration that it would have written is the declared one, to the character.  Whatever has the
same table name has the same class, the same token and qualifier, and the same slot and size. -/
theorem table_declared_once (sizes : TableSizes) (commands : List Command) (name : String) :
    let g := run commands (new sizes)
    let calls := Action.accepted step commands (new sizes)
    ((∀ c ∈ calls, c.table? ≠ some name) → tablesNamed name g.declarations = []) ∧
    ((∃ c ∈ calls, c.table? = some name) →
      ∃ before v after t, IsFirstNeed sizes name commands before v after ∧
        tablesNamed name g.declarations = [t] ∧
        (∃ rest : List Declaration, g.preamble =
          (run before (new sizes)).preamble ++ t.text ++ joinTexts (rest.map Declaration.text)) ∧
        ∀ earlier later, after = earlier ++ later →
          let k := run (before ++ .declareBinding v :: earlier) (new sizes)
          tablesNamed name k.declarations = [t] ∧
          ∀ w, Command.table? (.declareBinding w) = some name →
            step (.declareBinding w) k = .accepted k .done [.tableReused w.name name] ∧
            ∀ u : Emitter, u.sizes = sizes → ¬ u.tables.contains name = true →
              (step (.declareBinding w) u).state.preamble = u.preamble ++ t.text) ∧
    ∀ v w id id' t u, bindingForm sizes id v = .ok (.table t) →
      bindingForm sizes id' w = .ok (.table u) → t.name = u.name →
        ResourceClass.of? v.type = ResourceClass.of? w.type ∧
        v.type.resourceSpelling = w.type.resourceSpelling ∧ t = u := by
  intro g calls
  refine ⟨fun hnone => ?_, fun hsome => ?_, ?_⟩
  · have hlength := remembers_run sizes commands name
    rw [if_neg, List.length_eq_zero_iff] at hlength
    · exact hlength
    · rw [contains_tables_iff]
      rintro ⟨c, hc, hneeds⟩
      exact hnone c hc hneeds
  · obtain ⟨before, v, after, hfirst⟩ := exists_firstNeed hsome
    obtain ⟨t, form, hname, hadded⟩ := hfirst.declares
    obtain ⟨-, -, ⟨rest, hrest⟩, hsingle⟩ := hfirst.declared hname hadded after
    rw [← hfirst.split] at hrest hsingle
    refine ⟨before, v, after, t, hfirst, hsingle, ⟨rest, ?_⟩, fun earlier later hafter => ?_⟩
    · rw [preamble_of_declarations hrest, String.append_assoc]
      rfl
    · intro k
      obtain ⟨hsizes, hdeclared, -, hsingle⟩ := hfirst.declared hname hadded earlier
      refine ⟨hsingle, fun w hneeds => ?_⟩
      subst hname
      obtain ⟨hshared, hform, -⟩ :=
        shareTable_of_declared (g := k) (hsizes.symm ▸ form) hdeclared hneeds
      refine ⟨hshared, fun u hu hfresh => preamble_of_undeclared ?_ hfresh⟩
      rw [hu, ← hsizes]
      exact hform u.nextBlock
  · intro v w id id' t u hv hw hname
    obtain ⟨hbuffer, hspelling⟩ := spelling_of_table hw
    obtain ⟨hform, hclass⟩ := bindingForm_of_same_table hv hbuffer hspelling hname.symm id'
    rw [hform] at hw
    cases hw
    exact ⟨hclass.symm, (spelling_of_table hv).2.trans hspelling.symm, rfl⟩

/-- Two samplers share a table, and the second one would have declared it just like the first: at
the binding of the samplers, with as many elements as the samplers have by default.  The combined
sampler between them is refused, and there is no table for samplers that compare depths. -/
theorem table_declared_once_samplers :
    let linear : ResourceVariable := ⟨"linear", .sampler .none⟩
    let combined : ResourceVariable := ⟨"combined", .boundSampler .d2⟩
    let nearest : ResourceVariable := ⟨"nearest", .sampler .none⟩
    let commands : List Command :=
      [.declareBinding linear, .declareBinding combined, .declareBinding nearest]
    let g := run commands (new .standard)
    (∃ t, tablesNamed "_sampler_TABLE_" g.declarations = [t] ∧
      t.text = "layout(set = 0, binding = 0) uniform sampler _sampler_TABLE_[1024];\n\n" ∧
      (step (.declareBinding nearest) (new .standard)).state.preamble =
        (new .standard).preamble ++ t.text) ∧
      tablesNamed "_samplerShadow_TABLE_" g.declarations = [] ∧
      step (.declareBinding nearest) g =
        .accepted g .done [.tableReused "nearest" "_sampler_TABLE_"] ∧
      ResourceClass.of? linear.type = ResourceClass.of? nearest.type := by
  intro linear combined nearest commands g
  have hcalls : Action.accepted step commands (new .standard) =
      [.declareBinding linear, .declareBinding nearest] := by
    unfold commands linear combined nearest
    rfl
  obtain ⟨-, hsome, hsame⟩ := table_declared_once .standard commands "_sampler_TABLE_"
  obtain ⟨before, v, after, t, hfirst, hsingle, -, hlater⟩ :=
    hsome ⟨.declareBinding linear, by simp [hcalls], rfl⟩
  obtain ⟨-, hshared⟩ := hlater after [] (List.append_nil after).symm
  rw [← hfirst.split] at hshared
  obtain ⟨hnone, -⟩ := table_declared_once .standard commands "_samplerShadow_TABLE_"
  obtain ⟨hreused, hwould⟩ := hshared nearest rfl
  have htable : tablesNamed "_sampler_TABLE_" g.declarations =
      [⟨⟨0, 0, 1024⟩, ⟨"sampler", none⟩⟩] := by
    unfold g commands linear combined nearest
    rfl
  have htext : t.text =
      "layout(set = 0, binding = 0) uniform sampler _sampler_TABLE_[1024];\n\n" := by
    cases hsingle.symm.trans htable
    decide
  refine ⟨⟨t, hsingle, htext, hwould (new .standard) rfl (by simp [new])⟩, hnone fun c hc => ?_, hreused,
    (hsame linear nearest 0 0 _ _ rfl rfl rfl).1⟩
  rw [hcalls] at hc
  rcases List.mem_pair.mp hc with rfl | rfl <;> decide

end Emitter

end GlslEmit
