/-
# Structs of a program

A struct takes its name in the type table when its declaration is written, so that the names in the
table are the structs of the preamble, in order, each declared once.  A struct is used by its name
alone, as the type of a member or as the body of a buffer.  If every such use means the struct that
the table has under that name, then the declaration of the struct stands before the use.

* `Program.Registers`: the table and the preamble hold the same structs;
* `StructsPrecede`: every word for a struct stands behind the declaration of that struct;
* `Program.usedStruct_of_token`: the words that a command writes for structs are those of the
  structs that it uses;
* `Program.structs_declared_before_use` puts them together.
-/
import Mathlib.Data.List.Nodup
import GlslEmit.Proofs.Emitter.Region
import GlslEmit.Proofs.Emitter.Declaration
import GlslEmit.Proofs.Program.Registration

namespace GlslEmit

/-! ## Structs of a preamble -/

namespace Declaration

/-- The name of the struct that is declared. -/
def structName? : Declaration → Option String
  | struct name _ => some name
  | _ => none

/-- Whether a declaration is that of a struct. -/
def isStruct (d : Declaration) : Bool := d.structName?.isSome

/-- The words for the types of the members, where these are types of the program. -/
def memberTokens : Declaration → List String
  | struct _ fields => fields.map (·.token)
  | uniformBlock body _ => [structToken body]
  | bufferBlock b => [structToken b.body]
  | table _ => []
  | pushConstants _ => []

/-- The word for the type of a member is written in the text, with a space behind it. -/
theorem exists_text_eq_of_token {d : Declaration} {token : String} (h : token ∈ d.memberTokens) :
    ∃ x y, d.text = x ++ token ++ " " ++ y := by
  cases d with
  | struct name fields =>
    obtain ⟨f, hf, rfl⟩ := List.mem_map.mp h
    obtain ⟨x, y, hfields⟩ := exists_joinTexts_eq (List.mem_map_of_mem (f := Field.text) hf)
    have htext : (struct name fields).text = "struct " ++ structToken name ++ " \x7b\n" ++
      joinTexts (fields.map Field.text) ++ "\x7d;\n\n" := rfl
    refine ⟨"struct " ++ structToken name ++ " \x7b\n" ++ x ++ "\t",
      f.name ++ arraySuffix f.arraySize ++ ";\n" ++ y ++ "\x7d;\n\n", ?_⟩
    rw [htext, hfields]
    simp only [Field.text, String.append_assoc]
  | uniformBlock body name =>
    obtain rfl := List.mem_singleton.mp h
    refine ⟨"layout(set = " ++ toString uniformSet ++
      ", binding = 0, scalar) uniform _UBUFFER0_ " ++ "\x7b\n\t", name ++ ";\n\x7d;\n\n", ?_⟩
    rw [text_uniformBlock]
    simp only [String.append_assoc]
  | bufferBlock b =>
    obtain rfl := List.mem_singleton.mp h
    have hmember : " _data_" = " " ++ "_data_" := by decide
    refine ⟨layoutText b.slot (some b.kind.packing) ++ " " ++ b.kind.storageText ++ " " ++
      b.blockName ++ " \x7b\n\t", "_data_" ++ b.kind.memberSuffix ++ ";\n\x7d " ++ b.name ++ "[" ++
      toString b.slot.tableSize ++ "];\n\n", ?_⟩
    rw [text_bufferBlock, hmember]
    simp only [String.append_assoc]
  | table t => cases h
  | pushConstants fields => cases h

end Declaration

/-- Every word for a struct stands behind the declaration of that struct. -/
def StructsPrecede (declarations : List Declaration) : Prop :=
  ∀ before d after, declarations = before ++ d :: after →
    ∀ name, structToken name ∈ d.memberTokens → ∃ d' ∈ before, d'.structName? = some name

theorem structName?_of_structDeclaration {s : StructType} {d : Declaration}
    (h : structDeclaration s = .ok d) : d.structName? = some s.name := by
  obtain ⟨_, -, rfl⟩ := structDeclaration_eq_ok h
  rfl

/-- The declarations of some structs tell their names. -/
theorem names_of_declared {structs : List StructType} {declarations : List Declaration}
    (h : structs.map structDeclaration = declarations.map .ok) :
    structs.map (·.name) = declarations.filterMap (·.structName?) := by
  induction structs generalizing declarations with
  | nil =>
    obtain rfl := List.map_eq_nil_iff.mp h.symm
    rfl
  | cons s structs ih =>
    cases declarations with
    | nil => cases h
    | cons d declarations =>
      rw [List.map_cons, List.map_cons, List.cons.injEq] at h
      rw [List.map_cons, ih h.2, List.filterMap_cons_some (structName?_of_structDeclaration h.1)]

/-- The text of a declaration stands in front of the text of a later one. -/
theorem exists_preambleText_eq {before after : List Declaration} {d d' : Declaration}
    (h : d' ∈ before) : ∃ x y, preambleText (before ++ d :: after) =
      x ++ d'.text ++ y ++ d.text ++ joinTexts (after.map Declaration.text) := by
  obtain ⟨x, y, hbefore⟩ := exists_joinTexts_eq (List.mem_map_of_mem (f := Declaration.text) h)
  refine ⟨versionText ++ x, y, ?_⟩
  rw [preambleText, List.map_append, joinTexts_append, hbefore, List.map_cons]
  simp only [joinTexts, String.append_assoc]

namespace Program

/-! ## Uses of structs -/

/-- The structs that a command uses: as the types of members, or as the body of a buffer. -/
def Command.usedStructs : Command → List StructType
  | addStruct s => s.members.filterMap (·.type.struct?)
  | addBinding v => (v.type.body?.bind ShaderType.struct?).toList
  | addUniform v => (v.type.body?.bind ShaderType.struct?).toList
  | _ => []

variable {c : Command} {d : Declaration}

/-- A member with the word for a struct has that struct as its type. -/
theorem usedStruct_of_field {s : StructType} {fields : List Field}
    (h : memberFields s.name s.members = .ok fields) {name : String}
    (hname : structToken name ∈ fields.map (·.token)) :
    ∃ t ∈ (Command.addStruct s).usedStructs, t.name = name := by
  obtain ⟨f, hf, htoken⟩ := List.mem_map.mp hname
  obtain ⟨m, hm, hword⟩ := exists_member_of_field h hf
  rw [htoken] at hword
  obtain ⟨t, htype, ht⟩ := ShaderType.memberToken?_eq_structToken_iff.mp hword
  refine ⟨t, List.mem_filterMap.mpr ⟨m, hm, ?_⟩, ht⟩
  rw [htype]
  rfl

/-- The words that a command writes for structs are those of the structs that it uses. -/
theorem usedStruct_of_token (hdirect : ∀ e, c = .direct e → e.region ≠ .preamble)
    (h : c.emission.Declares d) {name : String} (hname : structToken name ∈ d.memberTokens) :
    ∃ t ∈ c.usedStructs, t.name = name := by
  cases c with
  | addStruct s =>
    obtain ⟨fields, hfields, rfl⟩ := structDeclaration_eq_ok h
    exact usedStruct_of_field hfields hname
  | addUniform v =>
    obtain ⟨t, htype, rfl⟩ := uniformDeclaration_eq_ok h
    refine ⟨t, ?_, (structToken_injective (List.mem_singleton.mp hname)).symm⟩
    rw [Command.usedStructs, htype]
    exact List.mem_singleton.mpr rfl
  | addBinding v =>
    obtain ⟨_, _, ⟨b, hblock, rfl⟩ | ⟨_, -, rfl⟩⟩ := h
    · obtain ⟨kind, t, htype, hbody⟩ := body_of_block hblock
      refine ⟨t, ?_, hbody ▸ (structToken_injective (List.mem_singleton.mp hname)).symm⟩
      rw [Command.usedStructs, htype]
      exact List.mem_singleton.mpr rfl
    · cases hname
  | direct e => cases e <;> first | exact absurd rfl (hdirect _ rfl) | exact h.elim
  | _ => exact h.elim

/-! ## The type table and the preamble -/

/-- The names in the type table are the given structs, and the preamble declares the same structs,
in the same order. -/
structure Registers (p : Program) (structs : List StructType) : Prop where
  types : ∀ name type, p.types.added[name]? = some type ↔
    ∃ s ∈ structs, s.name = name ∧ type = .struct s
  nonBuiltin : ∀ s ∈ structs, isBuiltin s.name = false
  nodup : (structs.map (·.name)).Nodup
  declared : structs.map structDeclaration = (p.emitter.declarations.filter (·.isStruct)).map .ok

theorem registers_new (sizes : TableSizes) : Registers (new sizes) [] where
  types := by simp [new, TypeTable.empty]
  nonBuiltin := by simp
  nodup := .nil
  declared := rfl

/-- A name that is no builtin name means what was added under it. -/
theorem resolve?_of_not_builtin {p : Program} {name : String} (h : isBuiltin name = false) :
    p.resolve? name = p.types.added[name]? := by
  have hnone : builtin? name = none := Option.isNone_iff_eq_none.mp (by simpa [isBuiltin] using h)
  rw [resolve?, TypeTable.resolve?, hnone]
  cases p.types.added[name]? <;> rfl

section Registers

variable {p q : Program} {structs : List StructType}

/-- A name that means a struct was added. -/
theorem Registers.mem_of_resolve? (hp : p.Registers structs) {name : String} {s : StructType}
    (h : p.resolve? name = some (.struct s)) : s ∈ structs := by
  rw [resolve?, TypeTable.resolve?] at h
  split at h
  · next type htype =>
    obtain ⟨t, ht, -, heq⟩ := (hp.types name type).mp htype
    rw [heq] at h
    cases h
    exact ht
  · exact absurd h (builtin?_ne_struct name s)

/-- A struct of the table is declared, and the declaration tells its name. -/
theorem Registers.exists_declaration (hp : p.Registers structs) {s : StructType}
    (hs : s ∈ structs) : ∃ d ∈ p.emitter.declarations, structDeclaration s = .ok d := by
  have hmem := List.mem_map_of_mem (f := structDeclaration) hs
  rw [hp.declared] at hmem
  obtain ⟨d, hd, heq⟩ := List.mem_map.mp hmem
  exact ⟨d, (List.mem_filter.mp hd).1, heq.symm⟩

/-- A declared struct is one of the table. -/
theorem Registers.exists_struct (hp : p.Registers structs) (hd : d ∈ p.emitter.declarations)
    {name : String} (hname : d.structName? = some name) :
    ∃ s ∈ structs, s.name = name ∧ structDeclaration s = .ok d := by
  have hstruct : d.isStruct = true := by rw [Declaration.isStruct, hname]; rfl
  have hmem : Except.ok d ∈ structs.map structDeclaration := by
    rw [hp.declared]
    exact List.mem_map_of_mem (List.mem_filter.mpr ⟨hd, hstruct⟩)
  obtain ⟨s, hs, hdecl⟩ := List.mem_map.mp hmem
  have hnames := structName?_of_structDeclaration hdecl
  rw [hname] at hnames
  exact ⟨s, hs, (Option.some.inj hnames).symm, hdecl⟩

/-- The declared names are those of the structs, in order. -/
theorem Registers.names_eq (hp : p.Registers structs) :
    structs.map (·.name) = p.emitter.declarations.filterMap (·.structName?) := by
  rw [names_of_declared hp.declared, List.filterMap_filter]
  refine List.filterMap_congr fun d _ => ?_
  cases hname : d.structName? <;> simp [Declaration.isStruct, hname]

/-- A free name is neither a builtin name nor one of the structs. -/
theorem Registers.fresh (hp : p.Registers structs) {name : String}
    (h : p.types.checkName name = .ok ()) :
    isBuiltin name = false ∧ ∀ s ∈ structs, s.name ≠ name := by
  rw [TypeTable.checkName_eq_ok_iff, TypeTable.contains, Bool.or_eq_false_iff] at h
  refine ⟨h.2, fun s hs hname => ?_⟩
  have hadded := (hp.types name (.struct s)).mpr ⟨s, hs, hname, rfl⟩
  rw [Std.TreeMap.contains_eq_isSome_getElem?, hadded] at h
  cases h.1

/-- Only a struct command declares a struct. -/
theorem not_isStruct_of_declares (hdirect : ∀ e, c = .direct e → e.region ≠ .preamble)
    (hc : c.addedStruct? = none) (h : c.emission.Declares d) : d.isStruct = false := by
  cases d with
  | struct name fields =>
    obtain ⟨s, hemission, -⟩ := h.of_struct
    cases c with
    | addStruct s => cases hc
    | direct e =>
      cases hemission
      exact absurd rfl (hdirect _ rfl)
    | _ => cases hemission
  | _ => rfl

/-- A command that adds no struct adds nothing to the table, and no struct to the preamble. -/
theorem Registers.keep (hp : p.Registers structs) (h : Registration p c q)
    (hdirect : ∀ e, c = .direct e → e.region ≠ .preamble) (hc : c.addedStruct? = none) :
    q.Registers structs := by
  refine ⟨?_, hp.nonBuiltin, hp.nodup, ?_⟩
  · rw [h.unregistered hc]
    exact hp.types
  · rcases h.transition.emitter.declarations_eq with hsame | ⟨d, hdeclares, hadded⟩
    · rw [hsame]
      exact hp.declared
    · rw [hadded, List.filter_append,
        List.filter_cons_of_neg (by simp [not_isStruct_of_declares hdirect hc hdeclares])]
      simpa using hp.declared

/-- An added struct is the last one, in the table under its name and in the preamble. -/
theorem Registers.add (hp : p.Registers structs) {s : StructType}
    (h : Registration p (.addStruct s) q) : q.Registers (structs ++ [s]) := by
  obtain ⟨hfree, htypes⟩ := h.registered s rfl
  obtain ⟨hbuiltin, hfresh⟩ := hp.fresh hfree
  obtain ⟨d, hdecl, hemitter⟩ := h.transition.emitter.declareStruct_state
  refine ⟨fun name type => ?_, fun t ht => ?_, ?_, ?_⟩
  · rw [htypes, Std.TreeMap.getElem?_insert]
    simp only [List.mem_append, List.mem_singleton, or_and_right, exists_or, exists_eq_left]
    by_cases hname : s.name = name
    · rw [if_pos (Std.LawfulEqCmp.compare_eq_iff_eq.mpr hname)]
      constructor
      · intro htype
        exact Or.inr ⟨hname, (Option.some.inj htype).symm⟩
      · rintro (⟨t, ht, htname, -⟩ | ⟨-, rfl⟩)
        · exact absurd (htname.trans hname.symm) (hfresh t ht)
        · rfl
    · rw [if_neg (mt Std.LawfulEqCmp.compare_eq_iff_eq.mp hname), hp.types]
      simp [hname]
  · rcases List.mem_append.mp ht with hold | hnew
    · exact hp.nonBuiltin t hold
    · rw [List.mem_singleton.mp hnew]
      exact hbuiltin
  · rw [List.map_append, List.map_singleton, List.nodup_append]
    refine ⟨hp.nodup, List.nodup_singleton _, fun name hname other hother => ?_⟩
    obtain ⟨t, ht, rfl⟩ := List.mem_map.mp hname
    rw [List.mem_singleton.mp hother]
    exact hfresh t ht
  · have hstruct : d.isStruct = true := by
      rw [Declaration.isStruct, structName?_of_structDeclaration hdecl]
      rfl
    have hdeclarations : q.emitter.declarations = p.emitter.declarations ++ [d] := by
      rw [hemitter]
      rfl
    rw [hdeclarations, List.filter_append, List.filter_cons_of_pos hstruct, List.filter_nil,
      List.map_append, List.map_append, hp.declared, List.map_singleton, hdecl]
    rfl

end Registers

/-! ## Runs -/

section Run

variable {sizes : TableSizes} {commands : List Command}

theorem registers_of_chain {p : Program} {calls : List Command}
    (h : Chain Registration (new sizes) calls p)
    (hdirect : ∀ e, .direct e ∈ calls → e.region ≠ .preamble) :
    p.Registers (calls.filterMap Command.addedStruct?) := by
  induction h with
  | refl => exact registers_new sizes
  | @snoc calls c _ _ _ hT ih =>
    have hearlier := ih fun e he => hdirect e (List.mem_append_left _ he)
    have hc (e : Emitter.Command) (he : c = .direct e) : e.region ≠ .preamble :=
      hdirect e (List.mem_append_right _ (List.mem_singleton.mpr he.symm))
    rw [List.filterMap_append]
    cases hadded : c.addedStruct? with
    | none =>
      rw [List.filterMap_cons_none hadded, List.filterMap_nil, List.append_nil]
      exact hearlier.keep hT hc hadded
    | some s =>
      rw [List.filterMap_cons_some hadded, List.filterMap_nil]
      obtain rfl := Command.addedStruct?_eq_some_iff.mp hadded
      exact hearlier.add hT

/-- In every reachable state the type table and the preamble hold the added structs. -/
theorem registers_run (hdirect : ∀ e, .direct e ∈ commands → e.region ≠ .preamble) :
    (run commands (new sizes)).Registers
      ((Action.accepted step commands (new sizes)).filterMap Command.addedStruct?) :=
  registers_of_chain
    (chain_accepted step_registers (fun hp h => h.transition.emitter.wellFormed hp) commands
      (Emitter.wellFormed_new sizes))
    fun e he => hdirect e ((Action.accepted_sublist commands (new sizes)).subset he)

/-- If every used struct is the one of its name, structs are declared before they are used. -/
theorem structsPrecede_run (hdirect : ∀ e, .direct e ∈ commands → e.region ≠ .preamble)
    (hresolved : ∀ before c after, commands = before ++ c :: after → ∀ s ∈ c.usedStructs,
      (run before (new sizes)).resolve? s.name = some (.struct s)) :
    StructsPrecede (run commands (new sizes)).emitter.declarations := by
  -- from the end, since the table is asked in the state that the earlier commands leave
  induction commands using List.reverseRecOn with
  | nil => exact forall_split_nil
  | append_singleton commands c ih =>
    obtain ⟨hearlier, hlast⟩ := forall_split_snoc_iff.mp hresolved
    have hdirect' (e : Emitter.Command) (he : .direct e ∈ commands) : e.region ≠ .preamble :=
      hdirect e (List.mem_append_left _ he)
    have hprecede := ih hdirect' hearlier
    have hregisters : (run commands (new sizes)).Registers _ := registers_run hdirect'
    have hwell : (run commands (new sizes)).emitter.WellFormed :=
      Reachable.wellFormed ⟨sizes, commands, rfl⟩
    have hsnoc : run (commands ++ [c]) (new sizes) = (step c (run commands (new sizes))).state :=
      Action.runAll_snoc commands c (new sizes)
    rw [hsnoc]
    rcases step_settles c _ hwell with ⟨e, hrefused⟩ | ⟨q, a, log, haccepted, hT⟩
    · rw [hrefused]
      exact hprecede
    · rw [haccepted]
      rcases hT.emitter.declarations_eq with hsame | ⟨d, hdeclares, hadded⟩
      · exact hsame ▸ hprecede
      · refine hadded ▸ forall_split_snoc_iff.mpr ⟨hprecede, fun name hname => ?_⟩
        have hc (e : Emitter.Command) (he : c = .direct e) : e.region ≠ .preamble :=
          hdirect e (List.mem_append_right _ (List.mem_singleton.mpr he.symm))
        obtain ⟨s, hs, rfl⟩ := usedStruct_of_token hc hdeclares hname
        obtain ⟨d', hd', hdecl⟩ :=
          hregisters.exists_declaration (hregisters.mem_of_resolve? (hlast s hs))
        exact ⟨d', hd', structName?_of_structDeclaration hdecl⟩

end Run

/-- **Structs are declared before use, and once.**  Take any calls without direct declarations in
the preamble, such that each struct that is used as the type of a member or as the body of a buffer
is what its name means at that moment.  Then a name that is no builtin name means exactly the struct
that was added under it; the preamble declares each added struct, no two of one name, in the order
in which they were added; and wherever it uses the word for a struct, the complete declaration of
that struct stands before. -/
theorem structs_declared_before_use (sizes : TableSizes) (commands : List Command)
    (hdirect : ∀ e, .direct e ∈ commands → e.region ≠ .preamble)
    (hresolved : ∀ before c after, commands = before ++ c :: after → ∀ s ∈ c.usedStructs,
      (run before (new sizes)).resolve? s.name = some (.struct s)) :
    let p := run commands (new sizes)
    let structs := (Action.accepted step commands (new sizes)).filterMap Command.addedStruct?
    let declarations := p.emitter.declarations
    (∀ name, isBuiltin name = false → ∀ type, p.resolve? name = some type ↔
      ∃ s ∈ structs, s.name = name ∧ type = .struct s) ∧
    (∀ s ∈ structs, isBuiltin s.name = false) ∧
    (structs.map (·.name)).Nodup ∧
    structs.map structDeclaration = (declarations.filter (·.isStruct)).map .ok ∧
    structs.map (·.name) = declarations.filterMap (·.structName?) ∧
    ∀ before d after, declarations = before ++ d :: after →
      ∀ name, structToken name ∈ d.memberTokens →
        ∃ s ∈ structs, s.name = name ∧ ∃ d' ∈ before, structDeclaration s = .ok d' ∧
          (∃ u v, d.text = u ++ structToken name ++ " " ++ v) ∧
          ∃ x y, p.emitter.preamble =
            x ++ d'.text ++ y ++ d.text ++ joinTexts (after.map Declaration.text) := by
  intro p structs declarations
  have hregisters : p.Registers structs := registers_run hdirect
  refine ⟨fun name hname type => ?_, hregisters.nonBuiltin, hregisters.nodup, hregisters.declared,
    hregisters.names_eq, fun before d after hsplit name hname => ?_⟩
  · rw [resolve?_of_not_builtin hname]
    exact hregisters.types name type
  · have hpreamble : p.emitter.declarations = before ++ d :: after := hsplit
    obtain ⟨d', hd', hstruct⟩ :=
      structsPrecede_run hdirect hresolved before d after hpreamble name hname
    have hmem : d' ∈ p.emitter.declarations := hpreamble ▸ List.mem_append_left _ hd'
    obtain ⟨s, hs, hsname, hdecl⟩ := hregisters.exists_struct hmem hstruct
    refine ⟨s, hs, hsname, d', hd', hdecl, Declaration.exists_text_eq_of_token hname, ?_⟩
    rw [Emitter.preamble, hpreamble]
    exact exists_preambleText_eq hd'

/-- A struct with a struct as its member, and a buffer of such structs.  In between, a struct whose
member has no word is refused and leaves its name free. -/
theorem structs_declared_before_use_nested :
    let light : StructType := ⟨"Light", [⟨"colour", .numeric (.vector .float 3), 1⟩]⟩
    let broken : StructType := ⟨"Scene", [⟨"nothing", .void, 1⟩]⟩
    let scene : StructType := ⟨"Scene", [⟨"lights", .struct light, 4⟩]⟩
    let commands : List Command :=
      [.addStruct light, .addStruct broken, .addStruct scene,
        .addBinding ⟨"scenes", .buffer .readOnly (some (.struct scene))⟩, .addStruct light]
    let p := run commands (new .standard)
    (∀ e, .direct e ∈ commands → e.region ≠ .preamble) ∧
      (∀ before c after, commands = before ++ c :: after → ∀ s ∈ c.usedStructs,
        (run before (new .standard)).resolve? s.name = some (.struct s)) ∧
      p.resolve? "Scene" = some (.struct scene) ∧
      ∃ x y, p.emitter.preamble =
        x ++ (Declaration.struct "Light" [⟨"vec3", "colour", 1⟩]).text ++ y ++
          (Declaration.struct "Scene" [⟨"Light_t", "lights", 4⟩]).text ++
          (Declaration.bufferBlock ⟨0, .readOnly, ⟨0, 2, 512⟩, "Scene", "scenes"⟩).text := by
  intro light broken scene commands p
  have hdirect : ∀ e, .direct e ∈ commands → e.region ≠ .preamble := by
    simp [commands]
  have hresolved : ∀ before c after, commands = before ++ c :: after → ∀ s ∈ c.usedStructs,
      (run before (new .standard)).resolve? s.name = some (.struct s) := by
    refine forall_split_cons_iff.mpr ⟨?_, forall_split_cons_iff.mpr ⟨?_,
      forall_split_cons_iff.mpr ⟨?_, forall_split_cons_iff.mpr ⟨?_,
        forall_split_cons_iff.mpr ⟨?_, forall_split_nil⟩⟩⟩⟩⟩ <;> intro s hs
    · cases hs
    · cases hs
    · obtain rfl : s = light := List.mem_singleton.mp hs
      unfold light broken
      rfl
    · obtain rfl : s = scene := List.mem_singleton.mp hs
      unfold scene light broken
      rfl
    · cases hs
  obtain ⟨htypes, -, -, -, -, huse⟩ :=
    structs_declared_before_use .standard commands hdirect hresolved
  have haccepted : (Action.accepted step commands (new .standard)).filterMap Command.addedStruct? =
      [light, scene] := by
    unfold commands scene light broken
    rfl
  refine ⟨hdirect, hresolved, ?_, ?_⟩
  · refine (htypes "Scene" (by decide) (.struct scene)).mpr ⟨scene, ?_, rfl, rfl⟩
    rw [haccepted]
    exact List.mem_cons_of_mem _ List.mem_cons_self
  · have hdeclarations : (run commands (new .standard)).emitter.declarations =
        [.struct "Light" [⟨"vec3", "colour", 1⟩]] ++ .struct "Scene" [⟨"Light_t", "lights", 4⟩] ::
          [.bufferBlock ⟨0, .readOnly, ⟨0, 2, 512⟩, "Scene", "scenes"⟩] := by
      unfold commands scene light broken
      rfl
    have htoken : structToken "Light" ∈
        (Declaration.struct "Scene" [⟨"Light_t", "lights", 4⟩]).memberTokens := by
      simp only [Declaration.memberTokens, List.map_singleton, List.mem_singleton]
      decide
    obtain ⟨-, -, -, d', hd', -, -, x, y, hpreamble⟩ :=
      huse _ _ _ hdeclarations "Light" htoken
    rw [List.mem_singleton.mp hd'] at hpreamble
    refine ⟨x, y, hpreamble.trans ?_⟩
    rw [List.map_singleton]
    simp only [joinTexts, String.append_empty]

end Program

end GlslEmit
