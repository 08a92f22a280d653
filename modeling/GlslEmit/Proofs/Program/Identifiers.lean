/-
# Identifiers of a built program

The source of a stage declares the identifiers of the preamble and those of its header.  A program
tests the names that it is given, in the table where they belong, and the emitter keeps a number or
a record for what it makes up itself, so that no identifier is declared twice.  But the test is made
for identifiers, and not for their spellings: a given name may be spelled like an identifier of
another kind.

* `Program.identifiers` lists what the source of a stage declares;
* `Program.Taken` says where an identifier is recorded; what an accepted command adds was not
  recorded before (`Settlement.fresh`), and is from then on (`Settlement.taken`, `Settlement.keeps`);
* `Program.accounted_of_chain`: so no identifier is declared twice, as long as the numbers of the
  blocks suffice;
* `Program.identifiers_of_build` says when their spellings are different as well.
-/
import GlslEmit.Proofs.Emitter.Identifiers
import GlslEmit.Proofs.Program.Globals
import GlslEmit.Proofs.Program.Rendering

namespace GlslEmit.Program

variable {c : Command} {p q : Program} {s : Stage} {i : Identifier} {calls : List Command}

/-! ## Accepted commands -/

/-- A command that takes its names from the program, or writes to a body. -/
def Command.IsTested (c : Command) : Prop := ∀ e, c = .direct e → e.region = .bodies

/-- One accepted command: its names were free, and it takes them with the text that it emits. -/
structure Settlement (p : Program) (c : Command) (q : Program) : Prop where
  emission : Emitter.Transition p.emitter c.emission q.emitter
  free : c.checkName p = .ok ()
  state : q = c.settle p q.emitter

/-- A command is refused without a trace, or it is settled. -/
theorem step_settlement : Refines step (fun p => p.emitter.WellFormed) Settlement := by
  intro c p hp
  rcases step_settles c p hp with ⟨e, he⟩ | ⟨q, answer, log, haccepted, hT⟩
  · exact Or.inl ⟨e, he⟩
  · have hok : (step c p).result.isOk = true := by
      rw [haccepted]
      rfl
    obtain ⟨hfree, -, hstate⟩ := settled_of_isOk hok
    rw [haccepted] at hstate
    obtain rfl : q = c.settle p (Emitter.step c.emission p.emitter).state := hstate
    exact Or.inr ⟨_, answer, log, haccepted, hT.emitter, hfree, rfl⟩

/-- A run is the chain of its settled commands. -/
theorem settlements_run (sizes : TableSizes) (commands : List Command) :
    Chain Settlement (new sizes) (Action.accepted step commands (new sizes))
      (run commands (new sizes)) :=
  chain_accepted step_settlement (fun hp h => h.emission.wellFormed hp) commands
    (Emitter.wellFormed_new sizes)

/-- A tested command declares a struct under the name that it is tested for. -/
theorem Command.IsTested.typeName (hc : c.IsTested) :
    c.emission.typeName? = c.addedStruct?.map (·.name) := by
  cases c with
  | direct e =>
    have hregion := hc e rfl
    cases e <;> first | rfl | cases hregion
  | _ => rfl

/-- A tested command declares a variable under the name that it is tested for. -/
theorem Command.IsTested.globalName (hc : c.IsTested) :
    c.emission.globalName? = c.global?.map (·.name) := by
  cases c with
  | direct e =>
    have hregion := hc e rfl
    cases e <;> first | rfl | cases hregion
  | _ => rfl

/-- A tested command does not declare the push-constant block. -/
theorem Command.IsTested.not_declareIndices (hc : c.IsTested) (max : UInt32) :
    c.emission ≠ .declareIndices max := by
  intro hemission
  cases c with
  | direct e =>
    have hregion := hc e rfl
    rw [show e = .declareIndices max from hemission] at hregion
    cases hregion
  | _ => cases hemission

/-! ## Recorded identifiers -/

/-- The identifier is recorded as taken. -/
def Taken (p : Program) : Identifier → Prop
  | .struct name => p.types.contains name = true
  | .given name => name ∈ p.scope.names
  | .passed _ name => name ∈ p.scope.names
  | .uniformBlock => p.emitter.uniformDeclared = true
  | .bufferBlock id => id ∈ p.emitter.declarations.filterMap Declaration.blockId?
  | .table spelling => p.emitter.tables.contains spelling.table = true
  | .pushConstants => False
  | .pushConstantFields => False

namespace Settlement

variable (h : Settlement p c q)

include h

/-- A settled command takes the name of its variable. -/
theorem names_eq : q.scope.names = p.scope.names ++ (c.global?.map (·.name)).toList := by
  rw [h.state, Command.settle]
  cases c.global? with
  | none => exact (List.append_nil _).symm
  | some v => exact Scope.names_extended

/-- A settled command takes the name of its struct. -/
theorem contains_iff (name : String) : q.types.contains name = true ↔
    p.types.contains name = true ∨ c.addedStruct?.map (·.name) = some name := by
  rw [h.state, Command.settle, TypeTable.contains, TypeTable.contains]
  cases c.addedStruct? with
  | none => simp
  | some t => simp [Std.TreeMap.contains_insert, or_comm, or_left_comm]

/-- The index of the scope keeps fitting its variables. -/
theorem indexed (hp : p.scope.Indexed) : q.scope.Indexed := by
  rw [h.state]
  cases hc : c.global? with
  | none =>
    rw [Command.settle, hc]
    exact hp
  | some v =>
    have hfree := h.free
    rw [Command.checkName_of_global hc] at hfree
    rw [Command.settle, hc]
    exact hp.extended (hp.not_mem_of_free hfree)

/-- What is recorded stays recorded. -/
theorem keeps (hi : p.Taken i) : q.Taken i := by
  have hglobal {name : String} (hname : name ∈ p.scope.names) : name ∈ q.scope.names := by
    rw [h.names_eq]
    exact List.mem_append_left _ hname
  cases i with
  | struct name => exact (h.contains_iff name).mpr (Or.inl hi)
  | given name => exact hglobal hi
  | passed t name => exact hglobal hi
  | uniformBlock => exact h.emission.keeps_records.1 hi
  | bufferBlock id =>
    show id ∈ q.emitter.declarations.filterMap Declaration.blockId?
    rw [h.emission.blockIds_eq]
    exact List.mem_append_left _ hi
  | table spelling => exact h.emission.keeps_records.2 _ hi
  | pushConstants => exact hi
  | pushConstantFields => exact hi

/-- A tested command records the identifiers that it introduces. -/
theorem taken (hc : c.IsTested) (hi : Emitter.Introduces p.emitter c.emission q.emitter i) :
    q.Taken i := by
  have hglobal {name : String} (hname : c.emission.globalName? = some name) :
      name ∈ q.scope.names := by
    rw [h.names_eq, ← hc.globalName, hname]
    exact List.mem_append_right _ (List.mem_singleton.mpr rfl)
  cases i with
  | struct name => exact (h.contains_iff name).mpr (Or.inr (hc.typeName ▸ hi))
  | given name => exact hglobal hi
  | passed t name => exact hglobal hi
  | uniformBlock => exact hi.2
  | bufferBlock id =>
    show id ∈ q.emitter.declarations.filterMap Declaration.blockId?
    rw [h.emission.blockIds_eq, if_pos hi.2, hi.1]
    exact List.mem_append_right _ (List.mem_singleton.mpr rfl)
  | table spelling => exact hi.2
  | pushConstants => exact absurd hi.choose_spec (hc.not_declareIndices _)
  | pushConstantFields => exact absurd hi.choose_spec (hc.not_declareIndices _)

/-- A tested command introduces identifiers that were not recorded. -/
theorem fresh (hc : c.IsTested) (hindexed : p.scope.Indexed)
    (hblock : c.emission.isBlock = true →
      p.emitter.nextBlock ∉ p.emitter.declarations.filterMap Declaration.blockId?)
    (hi : Emitter.Introduces p.emitter c.emission q.emitter i) : ¬ p.Taken i := by
  have hglobal {name : String} (hname : c.emission.globalName? = some name) :
      name ∉ p.scope.names := by
    rw [hc.globalName] at hname
    obtain ⟨v, hv, rfl⟩ := Option.map_eq_some_iff.mp hname
    have hfree := h.free
    rw [Command.checkName_of_global hv] at hfree
    exact hindexed.not_mem_of_free hfree
  cases i with
  | struct name =>
    have hname : c.emission.typeName? = some name := hi
    rw [hc.typeName] at hname
    obtain ⟨t, ht, rfl⟩ := Option.map_eq_some_iff.mp hname
    have hfree := h.free
    rw [Command.checkName, ht] at hfree
    exact Bool.eq_false_iff.mp ((TypeTable.checkName_eq_ok_iff _ _).mp hfree)
  | given name => exact hglobal hi
  | passed t name => exact hglobal hi
  | uniformBlock => exact hi.1
  | bufferBlock id =>
    rw [hi.1]
    exact hblock hi.2
  | table spelling => exact hi.1
  | pushConstants => exact id
  | pushConstantFields => exact id

end Settlement

/-! ## The identifiers of a source -/

/-- The identifiers that some declarations of a preamble declare, and those that some calls add to
the header of a stage. -/
def identifiers (declarations : List Declaration) (calls : List Command) (s : Stage) :
    List Identifier :=
  declarations.flatMap Declaration.identifiers ++
    calls.flatMap fun c => c.emission.interfaceIdentifiers s

/-- Further declarations and further calls add their own identifiers. -/
theorem identifiers_append (declarations declarations' : List Declaration)
    (calls calls' : List Command) (s : Stage) :
    (identifiers (declarations ++ declarations') (calls ++ calls') s).Perm
      (identifiers declarations calls s ++ identifiers declarations' calls' s) := by
  unfold identifiers
  rw [List.flatMap_append, List.flatMap_append, List.append_assoc, List.append_assoc]
  exact (List.perm_append_comm_assoc _ _ _).append_left _

/-- The source of a stage is accounted for: its identifiers are recorded, and no block apart, none
of them is declared twice. -/
structure Accounted (s : Stage) (calls : List Command) (p : Program) : Prop where
  indexed : p.scope.Indexed
  header : (p.emitter.outputs.get s).header.map InterfaceDeclaration.name =
    (calls.flatMap fun c => c.emission.interfaceIdentifiers s).map Identifier.text
  taken : ∀ i ∈ identifiers p.emitter.declarations calls s, i.Proper ∧ p.Taken i
  nodup : (calls.map Command.emission).countP Emitter.Command.isBlock ≤ UInt32.size →
    (identifiers p.emitter.declarations calls s).Nodup

/-- The number of the next block is free, as long as the numbers suffice. -/
theorem nextBlock_notMem {sizes : TableSizes} (h : Chain Settlement (new sizes) calls p)
    (few : (calls.map Command.emission).countP Emitter.Command.isBlock < UInt32.size) :
    p.emitter.nextBlock ∉ p.emitter.declarations.filterMap Declaration.blockId? := by
  have hchain : Chain Emitter.Transition (.new sizes) (calls.map Command.emission) p.emitter :=
    h.image (·.emitter) Command.emission fun hT => hT.emission
  rw [Emitter.blockIds_of_chain hchain, (Emitter.reflects_of_chain hchain).preamble.nextBlock]
  intro hmem
  obtain ⟨k, hk, hsame⟩ := List.mem_map.mp hmem
  have hbelow := List.mem_range.mp hk
  exact absurd (Emitter.numbered_injective (hbelow.trans few) few hsame) (Nat.ne_of_lt hbelow)

theorem accounted_new (sizes : TableSizes) (s : Stage) : Accounted s [] (new sizes) := by
  refine ⟨Scope.indexed_empty, ?_, fun i hi => ?_, fun _ => ?_⟩
  · simp [new, Emitter.new]
  · cases hi
  · exact List.nodup_nil

/-- A settled command keeps the account. -/
theorem Accounted.snoc {sizes : TableSizes} (hchain : Chain Settlement (new sizes) calls p)
    (hp : Accounted s calls p) (h : Settlement p c q) (hc : c.IsTested) :
    Accounted s (calls ++ [c]) q := by
  obtain ⟨added, hadds⟩ := h.emission.adds s
  have hnew : identifiers added [c] s =
      added.flatMap Declaration.identifiers ++ c.emission.interfaceIdentifiers s := by
    rw [identifiers, List.flatMap_singleton]
  have hperm := identifiers_append p.emitter.declarations added calls [c] s
  rw [← hadds.declarations, hnew] at hperm
  refine ⟨h.indexed hp.indexed, ?_, fun i hi => ?_, fun few => ?_⟩
  · rw [hadds.header, hp.header, List.flatMap_append, List.flatMap_singleton, List.map_append]
  · rcases List.mem_append.mp (hperm.mem_iff.mp hi) with hold | hnew
    · obtain ⟨hproper, htaken⟩ := hp.taken i hold
      exact ⟨hproper, h.keeps htaken⟩
    · obtain ⟨hproper, hintroduces⟩ := hadds.introduces i hnew
      exact ⟨hproper, h.taken hc hintroduces⟩
  · rw [List.map_append, List.map_singleton, List.countP_append] at few
    have hold := hp.nodup (Nat.le_of_add_right_le few)
    have hblock (hisBlock : c.emission.isBlock = true) :
        p.emitter.nextBlock ∉ p.emitter.declarations.filterMap Declaration.blockId? := by
      apply nextBlock_notMem hchain
      rw [List.countP_singleton, if_pos hisBlock] at few
      exact few
    -- what is added was not recorded, and everything else was
    refine hperm.nodup_iff.mpr (List.nodup_append.mpr ⟨hold, hadds.nodup, fun i hi j hj hij => ?_⟩)
    rw [← hij] at hj
    exact h.fresh hc hp.indexed hblock (hadds.introduces i hj).2 (hp.taken i hi).2

theorem accounted_of_chain {sizes : TableSizes} (h : Chain Settlement (new sizes) calls p)
    (hcalls : ∀ c ∈ calls, c.IsTested) (s : Stage) : Accounted s calls p := by
  induction h with
  | refl => exact accounted_new sizes s
  | @snoc calls c t u hprev hT ih =>
    refine .snoc hprev (ih fun c hc => hcalls c (List.mem_append_left _ hc)) hT ?_
    exact hcalls c (List.mem_append_right _ (List.mem_singleton.mpr rfl))

/-! ## Finished programs -/

/-- The push-constant block is the last declaration, and nothing else makes up its identifiers. -/
theorem Accounted.finished (hp : Accounted s calls p) :
    let declared := identifiers (p.emitter.declarations ++ pushConstantsFor calls) calls s
    (∀ i ∈ declared, i.Proper) ∧
      ((calls.map Command.emission).countP Emitter.Command.isBlock ≤ UInt32.size →
        declared.Nodup) := by
  intro declared
  have hperm := identifiers_append p.emitter.declarations (pushConstantsFor calls) calls [] s
  rw [List.append_nil] at hperm
  have hblock : ∀ i ∈ identifiers (pushConstantsFor calls) [] s, i.Proper ∧ ¬ p.Taken i := by
    unfold pushConstantsFor
    split
    · intro i hi
      cases hi
    · intro i hi
      rcases List.mem_pair.mp hi with rfl | rfl <;> exact ⟨trivial, id⟩
  refine ⟨fun i hi => ?_, fun few => ?_⟩
  · rcases List.mem_append.mp (hperm.mem_iff.mp hi) with hold | hnew
    · exact (hp.taken i hold).1
    · exact (hblock i hnew).1
  · refine hperm.nodup_iff.mpr (List.nodup_append.mpr ⟨hp.nodup few, ?_, fun i hi j hj hij => ?_⟩)
    · unfold pushConstantsFor
      split
      · exact List.nodup_nil
      · exact (by decide : [Identifier.pushConstants, .pushConstantFields].Nodup)
    · rw [← hij] at hj
      exact (hblock i hj).2 (hp.taken i hi).2

/-- Blocks with different identifiers have different numbers, so that there are no more blocks than
numbers. -/
theorem few_of_nodup {sizes : TableSizes} (h : Chain Settlement (new sizes) calls p)
    (hnodup : (p.emitter.declarations.flatMap Declaration.identifiers).Nodup) :
    (calls.map Command.emission).countP Emitter.Command.isBlock ≤ UInt32.size := by
  have hchain : Chain Emitter.Transition (.new sizes) (calls.map Command.emission) p.emitter :=
    h.image (·.emitter) Command.emission fun hT => hT.emission
  have hmem {d : Declaration} {id : UInt32} (hd : d.blockId? = some id) :
      .bufferBlock id ∈ d.identifiers := by
    cases d with
    | bufferBlock b =>
      cases hd
      exact List.mem_cons_self
    | _ => cases hd
  have hids : (p.emitter.declarations.filterMap Declaration.blockId?).Nodup := by
    refine List.pairwise_filterMap.mpr ((List.nodup_flatMap.mp hnodup).2.imp ?_)
    intro d d' hdisjoint id hid id' hid' hsame
    exact hdisjoint (hmem hid) (hsame ▸ hmem hid')
  rw [Emitter.blockIds_of_chain hchain, List.nodup_map_iff_inj_on List.nodup_range] at hids
  by_contra hmany
  -- the block behind the last number gets the first number again
  have hfirst : 0 ∈ List.range ((calls.map Command.emission).countP Emitter.Command.isBlock) :=
    List.mem_range.mpr (by omega)
  have hagain : UInt32.size ∈
      List.range ((calls.map Command.emission).countP Emitter.Command.isBlock) :=
    List.mem_range.mpr (by omega)
  have hsame := hids 0 hfirst UInt32.size hagain (by decide)
  cases hsame

/-- A source consists of the declarations of its preamble, those of its header, and a body. -/
theorem exists_body_of_build {sizes : TableSizes} {commands : List Command} {texts : Sources}
    (hbuild : (build (run commands (new sizes))).result = .ok texts) {text : String}
    (htext : (s, text) ∈ texts.stages) :
    let emitter := (run commands (new sizes)).emitter
    ∃ body : Body, text = preambleText
      (emitter.declarations ++ pushConstantsFor (Action.accepted step commands (new sizes))) ++
        headerText (emitter.outputs.get s).header ++ body.text := by
  intro emitter
  obtain ⟨hidle, hstages⟩ := sources_of_build hbuild
  have hchain : Chain Transition (new sizes) (Action.accepted step commands (new sizes))
      (run commands (new sizes)) := chain_run (Emitter.wellFormed_new sizes) commands
  rw [hstages, finished_eq _ _ (highestIndex_of_chain hchain rfl), mem_sources_iff,
    Emitter.source?, hidle, if_neg (by simp)] at htext
  obtain ⟨body, -, htext⟩ := Option.map_eq_some_iff.mp htext
  exact ⟨body, htext.symm⟩

/-- **When the identifiers of a source are different.**  Take a program whose declarations go through
its own tables, whatever calls it answers and whatever names they carry, and a stage that has a
source.  The names that the source declares at global scope are those of its preamble and of its
header, and they stand in its text.  They are pairwise different exactly if there are no more buffer
blocks than numbers for them, no given name is spelled like another identifier of the source, and no
struct is spelled like a passed value.  The latter two are sure if no given name and no struct begins
with an underscore, and no given name is that of the type of a struct. -/
theorem identifiers_of_build (sizes : TableSizes) (commands : List Command)
    (hdirect : ∀ e, .direct e ∈ commands → e.region = .bodies) (texts : Sources)
    (hbuild : (build (run commands (new sizes))).result = .ok texts) (s : Stage) (text : String)
    (htext : (s, text) ∈ texts.stages) :
    let calls := Action.accepted step commands (new sizes)
    let emitter := (run commands (new sizes)).emitter
    let declarations := emitter.declarations ++ pushConstantsFor calls
    let header := (emitter.outputs.get s).header
    let names := globalNames declarations header
    let declared := identifiers declarations calls s
    let blocks := (calls.map Command.emission).countP Emitter.Command.isBlock
    (∃ body : Body, text = preambleText declarations ++ headerText header ++ body.text) ∧
      (∀ name ∈ names, ∃ front rest, text = front ++ name ++ rest) ∧
      names = declared.map Identifier.text ∧
      (names.Nodup ↔ blocks ≤ UInt32.size ∧ Identifier.Clear declared) ∧
      ((∀ name, .given name ∈ declared → Identifier.isReserved name = false) →
        (∀ name, .struct name ∈ declared →
          Identifier.isReserved name = false ∧ .given (structToken name) ∉ declared) →
        Identifier.Clear declared) := by
  intro calls emitter declarations header names declared blocks
  have hchain := settlements_run sizes commands
  have htested : ∀ c ∈ calls, c.IsTested := by
    rintro c hc e rfl
    exact hdirect e ((Action.accepted_sublist commands (new sizes)).subset hc)
  have haccount := accounted_of_chain hchain htested s
  obtain ⟨hproper, hnodup⟩ := haccount.finished
  have hnames : names = declared.map Identifier.text := by
    unfold names globalNames declared identifiers
    rw [haccount.header, List.map_append, List.map_flatMap, List.map_flatMap]
  obtain ⟨body, htext⟩ := exists_body_of_build hbuild htext
  refine ⟨⟨body, htext⟩, fun name hname => ?_, hnames, ?_, fun hgiven hstruct => ?_⟩
  · rw [htext]
    exact exists_source_eq_of_name hname body
  · rw [hnames]
    constructor
    · intro hdifferent
      have hlisted : declared.Nodup := hdifferent.of_map
      have hfew : blocks ≤ UInt32.size := by
        have hpreamble : (declarations.flatMap Declaration.identifiers).Nodup :=
          (List.nodup_append.mp hlisted).1
        rw [List.flatMap_append] at hpreamble
        exact few_of_nodup hchain (List.nodup_append.mp hpreamble).1
      exact ⟨hfew, (Identifier.nodup_text_iff hlisted hproper).mp hdifferent⟩
    · rintro ⟨hfew, hclear⟩
      exact (Identifier.nodup_text_iff (hnodup hfew) hproper).mpr hclear
  · exact .of_plain hproper hgiven (fun name hname => (hstruct name hname).1)
      fun name hname => (hstruct name hname).2

/-- A struct, a buffer of it, a value that is passed to the fragment stage and a used sub-index: six
names, and all of them are different. -/
theorem identifiers_of_build_plain_names :
    let light : StructType := ⟨"Light", []⟩
    let commands : List Command :=
      [.addStruct light, .addBinding ⟨"lights", .buffer .readOnly (some (.struct light))⟩,
        .addVarying ⟨"uv", .numeric (.vector .float 2), 1, .varying false⟩ .vertex .fragment,
        .beginStage .fragment, .useIndex 3, .direct (.perform .closeBlock), .endStage]
    let calls := Action.accepted step commands (new .standard)
    let emitter := (run commands (new .standard)).emitter
    let declarations := emitter.declarations ++ pushConstantsFor calls
    let header := (emitter.outputs.get .fragment).header
    let names := globalNames declarations header
    ∃ texts, (build (run commands (new .standard))).result = .ok texts ∧
      texts.stages.map (·.1) = [.fragment] ∧
      names = ["Light_t", "_BUFFER0_", "lights", "_BINDING_INDICES_", "_bidx_", "_frag_uv"] ∧
      names.Nodup := by
  intro light commands calls emitter declarations header names
  have hok : (build (run commands (new .standard))).result.isOk = true := by decide +kernel
  obtain ⟨texts, hbuild⟩ : ∃ texts, (build (run commands (new .standard))).result = .ok texts := by
    cases hresult : (build (run commands (new .standard))).result with
    | ok texts => exact ⟨texts, rfl⟩
    | error e =>
      rw [hresult] at hok
      cases hok
  have hstages : texts.stages.map (·.1) = [.fragment] := by
    rw [(sources_of_build hbuild).2]
    decide +kernel
  obtain ⟨⟨s, text⟩, hmem, hs⟩ : ∃ source ∈ texts.stages, source.1 = .fragment := by
    rw [← List.mem_map, hstages]
    exact List.mem_singleton.mpr rfl
  obtain rfl : s = .fragment := hs
  have hdirect : ∀ e, .direct e ∈ commands → e.region = .bodies := by
    intro e he
    simp only [commands, List.mem_cons, reduceCtorEq, false_or, Command.direct.injEq,
      List.not_mem_nil, or_false] at he
    rw [he]
    rfl
  have hdeclared : identifiers declarations calls .fragment = [.struct "Light", .bufferBlock 0,
      .given "lights", .pushConstants, .pushConstantFields, .passed .fragment "uv"] := by
    decide +kernel
  obtain ⟨-, -, -, hnodup, hplain⟩ :=
    identifiers_of_build .standard commands hdirect texts hbuild .fragment text hmem
  have hclear := hplain
    (fun name hname => by
      rw [hdeclared] at hname
      obtain rfl : name = "lights" := by simpa using hname
      rfl)
    (fun name hname => by
      rw [hdeclared] at hname ⊢
      obtain rfl : name = "Light" := by simpa using hname
      decide)
  exact ⟨texts, hbuild, hstages, by decide +kernel, hnodup.mpr ⟨by decide +kernel, hclear⟩⟩

/-- A struct `Light` and a vertex attribute `Light_t` are both accepted, since a type and a variable
are tested in different tables; the source of the vertex stage declares `Light_t` twice. -/
theorem identifiers_of_build_not_always_different :
    let commands : List Command :=
      [.addStruct ⟨"Light", []⟩, .addVertexInput ⟨"Light_t", .numeric (.vector .float 3), 1, 0⟩,
        .beginStage .vertex, .endStage]
    let calls := Action.accepted step commands (new .standard)
    let emitter := (run commands (new .standard)).emitter
    let declarations := emitter.declarations ++ pushConstantsFor calls
    let header := (emitter.outputs.get .vertex).header
    let names := globalNames declarations header
    calls = commands ∧
      (∃ texts text, (build (run commands (new .standard))).result = .ok texts ∧
        texts.stages = [(.vertex, text)] ∧
        text = preambleText declarations ++ headerText header ++ "void main()\n\x7b\n\x7d\n\n") ∧
      names = ["Light_t", "Light_t"] ∧ ¬ names.Nodup := by
  intro commands calls emitter declarations header names
  have hnames : names = ["Light_t", "Light_t"] := by rfl
  refine ⟨rfl, ⟨_, _, rfl, rfl, by decide +kernel⟩, hnames, ?_⟩
  rw [hnames]
  decide

end GlslEmit.Program
