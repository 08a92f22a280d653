/-
# Identifiers that a run declares

An accepted command adds identifiers to the preamble or to a header, and each of them comes from one
of three sources: from the name that the command carries, from a number or a flag that the emitter
keeps, or from the spelling of a table that the emitter lacks.

* `Declaration.identifiers` and `Emitter.Command.interfaceIdentifiers` are the identifiers of a
  declaration, and those that a command adds to a header;
* `globalNames` are the names that a preamble and a header declare, and `exists_source_eq_of_name`
  finds each of them in the source;
* `Emitter.Introduces` says where a new identifier comes from;
* `Emitter.Transition.adds`: what an accepted command adds to the source of a stage;
* `Emitter.blocks` are the blocks of a preamble, and `Emitter.Transition.blocks_eq` says what an
  accepted command adds to them;
* `Emitter.blockIds_of_chain`: blocks are numbered in order.
-/
import GlslEmit.Proofs.Identifier
import GlslEmit.Proofs.Emitter.Declaration
import GlslEmit.Proofs.Emitter.Varying

namespace GlslEmit

/-! ## Identifiers of declarations -/

/-- The identifiers that a declaration of the preamble declares.  A block has an instance, except
for the uniform block, whose member is visible on its own. -/
def Declaration.identifiers : Declaration → List Identifier
  | struct name _ => [.struct name]
  | uniformBlock _ name => [.uniformBlock, .given name]
  | bufferBlock b => [.bufferBlock b.id, .given b.name]
  | table t => [.table t.spelling]
  | pushConstants _ => [.pushConstants, .pushConstantFields]

/-- The name that a declaration of a header declares. -/
def InterfaceDeclaration.name : InterfaceDeclaration → String
  | located value => value.name
  | attachment _ _ name => name

/-- The names that a preamble and a header declare at global scope. -/
def globalNames (declarations : List Declaration) (header : List InterfaceDeclaration) :
    List String :=
  declarations.flatMap (fun d => d.identifiers.map Identifier.text) ++
    header.map InterfaceDeclaration.name

/-! ### Names in their texts -/

/-- The identifiers of a declaration stand in its text. -/
theorem Declaration.exists_text_eq {d : Declaration} {i : Identifier} (hi : i ∈ d.identifiers) :
    ∃ front rest, d.text = front ++ i.text ++ rest := by
  cases d with
  | struct name fields =>
    obtain rfl := List.mem_singleton.mp hi
    refine ⟨"struct ", " \x7b\n" ++ joinTexts (fields.map Field.text) ++ "\x7d;\n\n", ?_⟩
    simp only [text_struct, Identifier.text, String.append_assoc]
  | uniformBlock body name =>
    rcases List.mem_pair.mp hi with rfl | rfl
    · have hblock : ", binding = 0, scalar) uniform _UBUFFER0_ " =
          ", binding = 0, scalar) uniform " ++ "_UBUFFER0_" ++ " " := by decide
      refine ⟨"layout(set = " ++ toString uniformSet ++ ", binding = 0, scalar) uniform ",
        " " ++ ("\x7b\n\t" ++ structToken body ++ " " ++ name ++ ";\n\x7d;\n\n"), ?_⟩
      rw [text_uniformBlock, hblock]
      simp only [Identifier.text, String.append_assoc]
    · refine ⟨"layout(set = " ++ toString uniformSet ++ ", binding = 0, scalar) uniform _UBUFFER0_ "
        ++ "\x7b\n\t" ++ structToken body ++ " ", ";\n\x7d;\n\n", ?_⟩
      simp only [text_uniformBlock, Identifier.text, String.append_assoc]
  | bufferBlock b =>
    rcases List.mem_pair.mp hi with rfl | rfl
    · refine ⟨layoutText b.slot (some b.kind.packing) ++ " " ++ b.kind.storageText ++ " ",
        " \x7b\n\t" ++ structToken b.body ++ " _data_" ++ b.kind.memberSuffix ++ ";\n\x7d " ++
          b.name ++ "[" ++ toString b.slot.tableSize ++ "];\n\n", ?_⟩
      simp only [text_bufferBlock, BufferBlock.blockName, Identifier.text, String.append_assoc]
    · refine ⟨layoutText b.slot (some b.kind.packing) ++ " " ++ b.kind.storageText ++ " " ++
          b.blockName ++ " \x7b\n\t" ++ structToken b.body ++ " _data_" ++ b.kind.memberSuffix ++
          ";\n\x7d ", "[" ++ toString b.slot.tableSize ++ "];\n\n", ?_⟩
      simp only [text_bufferBlock, Identifier.text, String.append_assoc]
  | table t =>
    obtain rfl := List.mem_singleton.mp hi
    refine ⟨layoutText t.slot t.spelling.qualifier ++ " uniform " ++ t.spelling.token ++ " ",
      "[" ++ toString t.slot.tableSize ++ "];\n\n", ?_⟩
    simp only [text_table, ResourceTable.name, Identifier.text, String.append_assoc]
  | pushConstants fields =>
    rcases List.mem_pair.mp hi with rfl | rfl
    · refine ⟨"layout (push_constant) uniform ", " \x7b\n" ++ GlslEmit.pushConstantFields fields ++
        "\x7d " ++ pushConstantInstance ++ ";\n\n", ?_⟩
      simp only [text_pushConstants, Identifier.text, String.append_assoc]
    · refine ⟨"layout (push_constant) uniform " ++ pushConstantBlock ++ " \x7b\n" ++
        GlslEmit.pushConstantFields fields ++ "\x7d ", ";\n\n", ?_⟩
      simp only [text_pushConstants, Identifier.text, String.append_assoc]

/-- The name of a declaration stands in its text. -/
theorem InterfaceDeclaration.exists_text_eq (d : InterfaceDeclaration) :
    ∃ front rest, d.text = front ++ d.name ++ rest := by
  cases d with
  | located v =>
    refine ⟨"layout(location = " ++ toString v.location ++ ") " ++
      (if v.flat then "flat " else "") ++ v.direction.text ++ " " ++ v.token ++ " ",
      arraySuffix v.arraySize ++ ";\n\n", ?_⟩
    have htext : (located v).text = "layout(location = " ++ toString v.location ++ ") " ++
        (if v.flat then "flat " else "") ++ v.direction.text ++ " " ++ v.token ++ " " ++ v.name ++
          arraySuffix v.arraySize ++ ";\n\n" := rfl
    rw [htext, name]
    simp only [String.append_assoc]
  | attachment index token name =>
    refine ⟨"layout(set = " ++ toString attachmentSet ++ ", binding = " ++ toString index ++
      ", input_attachment_index = " ++ toString index ++ ") uniform " ++ token ++ " ", ";\n\n", ?_⟩
    have htext : (attachment index token name).text =
        "layout(set = " ++ toString attachmentSet ++ ", binding = " ++ toString index ++
          ", input_attachment_index = " ++ toString index ++ ") uniform " ++ token ++ " " ++ name ++
          ";\n\n" := rfl
    rw [htext, InterfaceDeclaration.name]

/-- What a preamble and a header declare stands in the source that they make up. -/
theorem exists_source_eq_of_name {declarations : List Declaration}
    {header : List InterfaceDeclaration} {name : String}
    (hname : name ∈ globalNames declarations header) (body : Body) :
    ∃ front rest,
      preambleText declarations ++ headerText header ++ body.text = front ++ name ++ rest := by
  rcases List.mem_append.mp hname with hpreamble | hheader
  · obtain ⟨d, hd, hi⟩ := List.mem_flatMap.mp hpreamble
    obtain ⟨i, hmem, rfl⟩ := List.mem_map.mp hi
    obtain ⟨x, y, htext⟩ := Declaration.exists_text_eq hmem
    obtain ⟨front, rest, hjoin⟩ :=
      exists_joinTexts_eq (List.mem_map_of_mem (f := Declaration.text) hd)
    refine ⟨versionText ++ front ++ x, y ++ rest ++ headerText header ++ body.text, ?_⟩
    rw [preambleText, hjoin, htext]
    simp only [String.append_assoc]
  · obtain ⟨d, hd, rfl⟩ := List.mem_map.mp hheader
    obtain ⟨x, y, htext⟩ := d.exists_text_eq
    obtain ⟨front, rest, hjoin⟩ :=
      exists_joinTexts_eq (List.mem_map_of_mem (f := InterfaceDeclaration.text) hd)
    refine ⟨preambleText declarations ++ front ++ x, y ++ rest ++ body.text, ?_⟩
    rw [headerText, hjoin, htext]
    simp only [String.append_assoc]

/-! ### Numbers and names of declarations -/

/-- The identifier of the block that a declaration declares. -/
def Declaration.block? : Declaration → Option Identifier
  | uniformBlock _ _ => some .uniformBlock
  | bufferBlock b => some (.bufferBlock b.id)
  | pushConstants _ => some .pushConstants
  | _ => none

/-- The number of a declared block. -/
def Declaration.blockId? : Declaration → Option UInt32
  | bufferBlock b => some b.id
  | _ => none

/-- The number in the name of a block. -/
def Identifier.blockId? : Identifier → Option UInt32
  | bufferBlock id => some id
  | _ => none

/-- A block has the number that was next, and the name of its variable. -/
theorem names_of_block {sizes : TableSizes} {id : UInt32} {v : ResourceVariable} {b : BufferBlock}
    (h : bindingForm sizes id v = .ok (.block b)) : b.id = id ∧ b.name = v.name := by
  obtain ⟨kind, s, -, rfl⟩ := block_eq_ok h
  exact ⟨rfl, rfl⟩

theorem name_of_locatedValue {place : String} {direction : Direction} {v : InterfaceVariable}
    {value : LocatedValue} (h : locatedValue place direction v = .ok value) :
    value.name = v.name := by
  rw [locatedValue] at h
  split at h
  · cases h
    rfl
  · cases h

namespace Emitter

/-! ## What a command adds -/

namespace Command

/-- The identifiers that an accepted command adds to the header of a stage. -/
def interfaceIdentifiers (s : Stage) : Command → List Identifier
  | declareVertexInput v => if .vertex = s then [.given v.name] else []
  | declareFragmentOutput v => if .fragment = s then [.given v.name] else []
  | declareAttachment v => if .fragment = s then [.given v.name] else []
  | declareVarying v producer consumer =>
    if producer = s ∨ consumer = s then [.passed s v.name] else []
  | _ => []

/-- The name of the struct that a command declares. -/
def typeName? : Command → Option String
  | declareStruct s => some s.name
  | _ => none

/-- The name of the variable that a command declares. -/
def globalName? : Command → Option String
  | declareVertexInput v => some v.name
  | declareFragmentOutput v => some v.name
  | declareBinding v => some v.name
  | declareUniform v => some v.name
  | declareAttachment v => some v.name
  | declareVarying v _ _ => some v.name
  | _ => none

theorem interfaceIdentifiers_eq_nil {c : Command} (hc : c.region ≠ .headers) (s : Stage) :
    c.interfaceIdentifiers s = [] := by
  cases c with
  | declareVertexInput v => exact absurd rfl hc
  | declareFragmentOutput v => exact absurd rfl hc
  | declareAttachment v => exact absurd rfl hc
  | declareVarying v producer consumer => exact absurd rfl hc
  | _ => rfl

/-- A command adds at most one identifier to a header. -/
theorem nodup_interfaceIdentifiers (c : Command) (s : Stage) :
    (c.interfaceIdentifiers s).Nodup := by
  unfold interfaceIdentifiers
  split <;> first | exact List.nodup_nil | (split <;> simp)

end Command

/-- Where a new identifier comes from: from a name of the command, or from what the emitter keeps
for itself. -/
def Introduces (g : Emitter) (c : Command) (g' : Emitter) : Identifier → Prop
  | .struct name => c.typeName? = some name
  | .given name => c.globalName? = some name
  | .passed _ name => c.globalName? = some name
  | .uniformBlock => ¬ g.uniformDeclared = true ∧ g'.uniformDeclared = true
  | .bufferBlock id => id = g.nextBlock ∧ c.isBlock = true
  | .table spelling =>
    ¬ g.tables.contains spelling.table = true ∧ g'.tables.contains spelling.table = true
  | .pushConstants => ∃ max, c = .declareIndices max
  | .pushConstantFields => ∃ max, c = .declareIndices max

/-- A header command introduces the name that it carries. -/
theorem Introduces.of_interface {g g' : Emitter} {c : Command} {s : Stage} {i : Identifier}
    (hi : i ∈ c.interfaceIdentifiers s) : i.Proper ∧ Introduces g c g' i := by
  have hone {p : Prop} [Decidable p] {j : Identifier} (hi : i ∈ if p then [j] else []) : i = j :=
    List.mem_singleton.mp (List.mem_ite_nil_right.mp hi).2
  cases c with
  | declareVertexInput v => rw [hone hi]; exact ⟨trivial, rfl⟩
  | declareFragmentOutput v => rw [hone hi]; exact ⟨trivial, rfl⟩
  | declareAttachment v => rw [hone hi]; exact ⟨trivial, rfl⟩
  | declareVarying v producer consumer => rw [hone hi]; exact ⟨trivial, rfl⟩
  | _ => cases hi

/-- What an accepted command adds to the source of a stage. -/
structure Adds (s : Stage) (g : Emitter) (c : Command) (g' : Emitter) (ds : List Declaration) :
    Prop where
  declarations : g'.declarations = g.declarations ++ ds
  header : (g'.outputs.get s).header.map InterfaceDeclaration.name =
    (g.outputs.get s).header.map InterfaceDeclaration.name ++
      (c.interfaceIdentifiers s).map Identifier.text
  nodup : (ds.flatMap Declaration.identifiers ++ c.interfaceIdentifiers s).Nodup
  introduces : ∀ i ∈ ds.flatMap Declaration.identifiers ++ c.interfaceIdentifiers s,
    i.Proper ∧ Introduces g c g' i

section Step

variable {g g' : Emitter} {c : Command} {s : Stage}

/-- The header of a stage gets the names that the command carries. -/
theorem Transition.header_names (h : Transition g c g') (s : Stage) :
    (g'.outputs.get s).header.map InterfaceDeclaration.name =
      (g.outputs.get s).header.map InterfaceDeclaration.name ++
        (c.interfaceIdentifiers s).map Identifier.text := by
  have hdeclareIn (t : Stage) (d : InterfaceDeclaration) :
      ((g.declareIn t d).outputs.get s).header.map InterfaceDeclaration.name =
        (g.outputs.get s).header.map InterfaceDeclaration.name ++
          if t = s then [d.name] else [] := by
    rw [header_declareIn, List.map_append]
    split <;> rfl
  by_cases hc : c.region = .headers
  · cases h with
    | declareVertexInput form =>
      rw [hdeclareIn, InterfaceDeclaration.name, name_of_locatedValue form,
        Command.interfaceIdentifiers]
      split <;> rfl
    | declareFragmentOutput form =>
      rw [hdeclareIn, InterfaceDeclaration.name, name_of_locatedValue form,
        Command.interfaceIdentifiers]
      split <;> rfl
    | declareAttachment form =>
      rw [hdeclareIn, InterfaceDeclaration.name, Command.interfaceIdentifiers]
      split <;> rfl
    | @declareVarying v producer consumer token order form =>
      -- a stage is the producer or the consumer, and not both
      have hne := Stage.ne_of_lt order
      rw [header_withVarying, Command.interfaceIdentifiers, List.append_assoc, List.map_append]
      congr 1
      by_cases hp : producer = s
      · have hother : consumer ≠ s := fun heq => hne (hp.trans heq.symm)
        rw [if_pos hp, if_neg hother, if_pos (Or.inl hp), ← hp]
        rfl
      · by_cases hs : consumer = s
        · rw [if_neg hp, if_pos hs, if_pos (Or.inr hs), ← hs]
          rfl
        · rw [if_neg hp, if_neg hs, if_neg (not_or.mpr ⟨hp, hs⟩)]
          rfl
    | _ => cases hc
  · rw [(h.sameHeaders hc).header, Command.interfaceIdentifiers_eq_nil hc, List.map_nil,
      List.append_nil]

/-- A command to the preamble adds its declaration. -/
theorem Adds.of_declaration (h : Transition g c g') {d : Declaration}
    (hdeclarations : g'.declarations = g.declarations ++ [d]) (hc : c.region ≠ .headers)
    (hnodup : d.identifiers.Nodup)
    (hintroduces : ∀ i ∈ d.identifiers, i.Proper ∧ Introduces g c g' i) : Adds s g c g' [d] := by
  have hnew : [d].flatMap Declaration.identifiers ++ c.interfaceIdentifiers s = d.identifiers := by
    rw [Command.interfaceIdentifiers_eq_nil hc, List.append_nil, List.flatMap_singleton]
  exact ⟨hdeclarations, h.header_names s, hnew ▸ hnodup, hnew ▸ hintroduces⟩

/-- A command without a declaration in the preamble adds to a header or nothing. -/
theorem Adds.of_header (h : Transition g c g') (hdeclarations : g'.declarations = g.declarations) :
    Adds s g c g' [] :=
  ⟨by rw [hdeclarations, List.append_nil], h.header_names s, c.nodup_interfaceIdentifiers s,
    fun _ hi => Introduces.of_interface hi⟩

/-- An accepted command adds its identifiers, and each of them has a source. -/
theorem Transition.adds (h : Transition g c g') (s : Stage) : ∃ ds, Adds s g c g' ds := by
  have hT := h
  by_cases hc : c.region = .preamble
  · have hheaders : c.region ≠ .headers := by rw [hc]; decide
    cases h with
    | @declareStruct v _ form =>
      obtain ⟨fields, -, rfl⟩ := structDeclaration_eq_ok form
      refine ⟨_, .of_declaration hT rfl hheaders (List.nodup_singleton _) fun i hi => ?_⟩
      rw [List.mem_singleton.mp hi]
      exact ⟨trivial, rfl⟩
    | @declareUniform v _ first form =>
      obtain ⟨t, -, rfl⟩ := uniformDeclaration_eq_ok form
      refine ⟨_, .of_declaration hT rfl hheaders (by simp [Declaration.identifiers]) fun i hi => ?_⟩
      rcases List.mem_pair.mp hi with rfl | rfl
      · exact ⟨trivial, first, rfl⟩
      · exact ⟨trivial, rfl⟩
    | @declareBlock v b form =>
      obtain ⟨hid, hname⟩ := names_of_block form
      refine ⟨_, .of_declaration hT rfl hheaders (by simp [Declaration.identifiers]) fun i hi => ?_⟩
      rcases List.mem_pair.mp hi with rfl | rfl
      · exact ⟨trivial, hid, isBuffer_of_block form⟩
      · exact ⟨trivial, congrArg some hname.symm⟩
    | @declareTable v t form fresh =>
      refine ⟨_, .of_declaration hT rfl hheaders (List.nodup_singleton _) fun i hi => ?_⟩
      rw [List.mem_singleton.mp hi]
      exact ⟨⟨v.type, spelling_of_table form⟩, fresh, Std.TreeSet.contains_insert_self⟩
    | declareIndices small =>
      refine ⟨_, .of_declaration hT rfl hheaders (by simp [Declaration.identifiers]) fun i hi => ?_⟩
      rcases List.mem_pair.mp hi with rfl | rfl <;> exact ⟨trivial, _, rfl⟩
    | shareTable form declared => exact ⟨[], .of_header hT rfl⟩
    | _ => cases hc
  · exact ⟨[], .of_header hT (h.samePreamble hc).declarations⟩

end Step

/-- What the emitter remembers of the uniform block and of the tables, it does not forget. -/
theorem Transition.keeps_records {g g' : Emitter} {c : Command} (h : Transition g c g') :
    (g.uniformDeclared = true → g'.uniformDeclared = true) ∧
      ∀ name, g.tables.contains name = true → g'.tables.contains name = true := by
  cases h with
  | declareUniform first form => exact ⟨fun _ => rfl, fun _ hname => hname⟩
  | @declareTable v t form fresh =>
    refine ⟨id, fun name hname => ?_⟩
    show (g.tables.insert t.name).contains name = true
    rw [Std.TreeSet.contains_insert, hname, Bool.or_true]
  | _ => exact ⟨id, fun _ => id⟩

/-! ## Blocks -/

/-- The blocks of the preamble, in order. -/
def blocks (g : Emitter) : List Identifier := g.declarations.filterMap Declaration.block?

/-- The block that an accepted command declares, if the given number is next. -/
def Command.block? (next : UInt32) : Command → Option Identifier
  | declareUniform _ => some .uniformBlock
  | declareBinding v => if v.type.isBuffer then some (.bufferBlock next) else none
  | declareIndices _ => some .pushConstants
  | _ => none

/-- An accepted command adds its block. -/
theorem Transition.blocks_eq {g g' : Emitter} {c : Command} (h : Transition g c g') :
    g'.blocks = g.blocks ++ (c.block? g.nextBlock).toList := by
  have hadd {d : Declaration} : (g.declare d).blocks = g.blocks ++ d.block?.toList := by
    rw [blocks, declare, List.filterMap_append]
    cases hd : d.block? <;> simp [hd, blocks]
  cases h with
  | declareStruct form =>
    obtain ⟨fields, -, rfl⟩ := structDeclaration_eq_ok form
    exact hadd
  | declareUniform first form =>
    obtain ⟨t, -, rfl⟩ := uniformDeclaration_eq_ok form
    exact hadd (d := .uniformBlock t.name _)
  | @declareBlock v b form =>
    rw [Command.block?, isBuffer_of_block form, if_pos rfl, ← (names_of_block form).1]
    exact hadd (d := .bufferBlock b)
  | @declareTable v t form fresh =>
    rw [Command.block?, (spelling_of_table form).1, if_neg Bool.false_ne_true]
    exact hadd (d := .table t)
  | @shareTable v t form declared =>
    rw [Command.block?, (spelling_of_table form).1, if_neg Bool.false_ne_true]
    exact (List.append_nil _).symm
  | declareIndices small => exact hadd
  | _ => exact (List.append_nil _).symm

/-- The numbered blocks of a preamble are among its blocks. -/
theorem blockIds_eq_filterMap (g : Emitter) :
    g.declarations.filterMap Declaration.blockId? = g.blocks.filterMap Identifier.blockId? := by
  rw [blocks, List.filterMap_filterMap]
  congr 1
  funext d
  cases d <;> rfl

/-- Only a buffer binding adds a numbered block, and it gets the next number. -/
theorem Transition.blockIds_eq {g g' : Emitter} {c : Command} (h : Transition g c g') :
    g'.declarations.filterMap Declaration.blockId? =
      g.declarations.filterMap Declaration.blockId? ++
        if c.isBlock then [g.nextBlock] else [] := by
  rw [blockIds_eq_filterMap, blockIds_eq_filterMap, h.blocks_eq, List.filterMap_append]
  congr 1
  cases c with
  | declareBinding v =>
    rw [Command.block?, Command.isBlock]
    split <;> rfl
  | _ => rfl

/-- Blocks are numbered in order. -/
theorem blockIds_of_chain {sizes : TableSizes} {history : List Command} {g : Emitter}
    (h : Chain Transition (new sizes) history g) :
    g.declarations.filterMap Declaration.blockId? =
      (List.range (history.countP Command.isBlock)).map UInt32.ofNat := by
  induction h with
  | refl => rfl
  | @snoc history c t u hprev hT ih =>
    rw [hT.blockIds_eq, ih, (reflects_of_chain hprev).preamble.nextBlock]
    cases hc : c.isBlock with
    | false =>
      rw [countP_snoc_of_false hc]
      exact List.append_nil _
    | true =>
      rw [countP_snoc_of_true hc, List.range_succ, List.map_append]
      rfl

end Emitter

end GlslEmit
