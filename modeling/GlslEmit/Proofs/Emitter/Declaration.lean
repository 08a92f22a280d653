/-
# Where declarations come from

An accepted command adds one declaration to the preamble or none, and the declaration tells which
command it is: only a struct command declares a struct, and only a command for sub-indices declares
the push-constant block.

* `Emitter.Command.Declares` relates a command to the declarations that it may add;
* `Emitter.Transition.declarations_eq`: what an accepted command adds;
* `Emitter.declares_of_chain`: every declaration of a run stems from one of its commands;
* `Emitter.exists_declarations_eq`: declarations are only ever added at the end;
* `structDeclaration_eq_ok`, `uniformDeclaration_eq_ok` and `block_eq_ok` say what a declaration is
  made of.
-/
import GlslEmit.Proofs.Emitter.Transition

namespace GlslEmit

/-! ## What declarations are made of -/

theorem structDeclaration_eq_ok {s : StructType} {d : Declaration}
    (h : structDeclaration s = .ok d) :
    ∃ fields, memberFields s.name s.members = .ok fields ∧ d = .struct s.name fields := by
  rw [structDeclaration] at h
  cases hfields : memberFields s.name s.members with
  | error e =>
    rw [hfields] at h
    cases h
  | ok fields =>
    rw [hfields] at h
    exact ⟨fields, rfl, (Except.ok.inj h).symm⟩

/-- The fields of a struct are the members in order, each with the word for its type. -/
theorem memberFields_eq_ok {owner : String} {members : List StructMember} {fields : List Field}
    (h : memberFields owner members = .ok fields) :
    List.Forall₂ (fun m f => m.type.memberToken? = some f.token ∧ f.name = m.name ∧
      f.arraySize = m.arraySize) members fields := by
  induction members generalizing fields with
  | nil =>
    cases h
    exact .nil
  | cons m rest ih =>
    rw [memberFields] at h
    split at h
    · cases h
    · next field hfield =>
      split at h
      · cases h
      · next fields' hrest =>
        cases h
        refine .cons ?_ (ih hrest)
        rw [memberField] at hfield
        split at hfield
        · next token htoken =>
          cases hfield
          exact ⟨htoken, rfl, rfl⟩
        · cases hfield

/-- The members have no declared form exactly if one of them has none, and the first one of these
is the reason. -/
theorem memberFields_eq_error_iff {owner : String} {members : List StructMember} {e : EmitError} :
    memberFields owner members = .error e ↔
      ∃ before m after, members = before ++ m :: after ∧
        (∀ k ∈ before, ∃ field, memberField owner k = .ok field) ∧
        memberField owner m = .error e := by
  induction members with
  | nil =>
    constructor
    · intro h
      cases h
    · rintro ⟨before, m, after, hsplit, -⟩
      cases before <;> cases hsplit
  | cons k rest ih =>
    cases hk : memberField owner k with
    | error e' =>
      -- the first member is to blame, whatever stands behind it
      rw [memberFields, hk]
      constructor
      · intro h
        cases h
        exact ⟨[], k, rest, rfl, by simp, hk⟩
      · rintro ⟨before, m, after, hsplit, hbefore, hm⟩
        cases before with
        | nil =>
          cases hsplit
          cases hk.symm.trans hm
          rfl
        | cons k' before =>
          cases hsplit
          obtain ⟨field, hfield⟩ := hbefore k List.mem_cons_self
          cases hk.symm.trans hfield
    | ok field =>
      have hrest : memberFields owner (k :: rest) = .error e ↔
          memberFields owner rest = .error e := by
        rw [memberFields, hk]
        cases memberFields owner rest <;> simp
      refine hrest.trans (ih.trans ?_)
      constructor
      · rintro ⟨before, m, after, rfl, hbefore, hm⟩
        refine ⟨k :: before, m, after, rfl, ?_, hm⟩
        intro k' hk'
        rcases List.mem_cons.mp hk' with rfl | hk'
        · exact ⟨field, hk⟩
        · exact hbefore k' hk'
      · rintro ⟨before, m, after, hsplit, hbefore, hm⟩
        cases before with
        | nil =>
          cases hsplit
          cases hk.symm.trans hm
        | cons k' before =>
          cases hsplit
          exact ⟨before, m, after, rfl, fun k' hk' => hbefore k' (List.mem_cons_of_mem k hk'), hm⟩

/-- Every field stems from a member. -/
theorem exists_member_of_field {owner : String} {members : List StructMember}
    {fields : List Field} (h : memberFields owner members = .ok fields) {f : Field}
    (hf : f ∈ fields) : ∃ m ∈ members, m.type.memberToken? = some f.token := by
  have hfields := memberFields_eq_ok h
  clear h
  induction hfields with
  | nil => cases hf
  | @cons m _ _ _ hfirst _ ih =>
    rcases List.mem_cons.mp hf with rfl | hrest
    · exact ⟨m, List.mem_cons_self, hfirst.1⟩
    · obtain ⟨m', hm', htoken⟩ := ih hrest
      exact ⟨m', List.mem_cons_of_mem m hm', htoken⟩

/-! ### Texts of declarations -/

theorem text_struct (name : String) (fields : List Field) :
    (Declaration.struct name fields).text = "struct " ++ structToken name ++ " \x7b\n" ++
      joinTexts (fields.map Field.text) ++ "\x7d;\n\n" := rfl

theorem text_uniformBlock (body name : String) : (Declaration.uniformBlock body name).text =
    "layout(set = " ++ toString uniformSet ++ ", binding = 0, scalar) uniform _UBUFFER0_ " ++
      "\x7b\n\t" ++ structToken body ++ " " ++ name ++ ";\n\x7d;\n\n" := rfl

theorem text_bufferBlock (b : BufferBlock) : (Declaration.bufferBlock b).text =
    layoutText b.slot (some b.kind.packing) ++ " " ++ b.kind.storageText ++ " " ++ b.blockName ++
      " \x7b\n\t" ++ structToken b.body ++ " _data_" ++ b.kind.memberSuffix ++ ";\n\x7d " ++
        b.name ++ "[" ++ toString b.slot.tableSize ++ "];\n\n" := rfl

theorem text_table (t : ResourceTable) : (Declaration.table t).text =
    layoutText t.slot t.spelling.qualifier ++ " uniform " ++ t.spelling.token ++ " " ++ t.name ++
      "[" ++ toString t.slot.tableSize ++ "];\n\n" := rfl

theorem text_pushConstants (fields : UInt32) : (Declaration.pushConstants fields).text =
    "layout (push_constant) uniform " ++ pushConstantBlock ++ " \x7b\n" ++
      pushConstantFields fields ++ "\x7d " ++ pushConstantInstance ++ ";\n\n" := rfl

/-! ### Types behind the blocks -/

theorem structName?_eq_some_iff {t : ShaderType} {name : String} :
    t.structName? = some name ↔ ∃ s : StructType, t = .struct s ∧ s.name = name := by
  cases t with
  | struct s => simp [ShaderType.structName?, ShaderType.struct?]
  | _ => simp [ShaderType.structName?, ShaderType.struct?]

/-- The uniform block holds the struct that is the body of its type. -/
theorem uniformDeclaration_eq_ok {v : ResourceVariable} {d : Declaration}
    (h : uniformDeclaration v = .ok d) :
    ∃ s, v.type = .buffer .uniform (some (.struct s)) ∧ d = .uniformBlock s.name v.name := by
  rw [uniformDeclaration] at h
  split at h
  · next body htype =>
    split at h
    · next name hname =>
      cases h
      obtain ⟨t, rfl, ht⟩ := Option.bind_eq_some_iff.mp hname
      obtain ⟨s, rfl, rfl⟩ := structName?_eq_some_iff.mp ht
      exact ⟨s, htype, rfl⟩
    · cases h
  · cases h

/-- A block holds the struct that is the body of its type. -/
theorem body_of_block {sizes : TableSizes} {id : UInt32} {v : ResourceVariable} {b : BufferBlock}
    (h : bindingForm sizes id v = .ok (.block b)) :
    ∃ kind s, v.type = .buffer kind (some (.struct s)) ∧ b.body = s.name := by
  rw [bindingForm] at h
  split at h
  · cases h
  · cases h
  · split at h
    · cases h
    · split at h
      · next kind body htype =>
        split at h
        · next name hname =>
          cases h
          obtain ⟨t, rfl, ht⟩ := Option.bind_eq_some_iff.mp hname
          obtain ⟨s, rfl, rfl⟩ := structName?_eq_some_iff.mp ht
          exact ⟨kind, s, htype, rfl⟩
        · cases h
      · cases h

/-- A block has the number that was next, the place of the buffers, and the name of its variable. -/
theorem block_eq_ok {sizes : TableSizes} {id : UInt32} {v : ResourceVariable} {b : BufferBlock}
    (h : bindingForm sizes id v = .ok (.block b)) :
    ∃ kind s, v.type = .buffer kind (some (.struct s)) ∧
      b = ⟨id, kind, ResourceClass.buffers.slot sizes, s.name, v.name⟩ := by
  obtain ⟨kind, s, htype, -⟩ := body_of_block h
  rw [bindingForm, htype] at h
  cases h
  exact ⟨kind, s, htype, rfl⟩

/-- A block lies at the place of the buffers. -/
theorem slot_of_block {sizes : TableSizes} {id : UInt32} {v : ResourceVariable} {b : BufferBlock}
    (h : bindingForm sizes id v = .ok (.block b)) : b.slot = ResourceClass.buffers.slot sizes := by
  obtain ⟨kind, s, -, rfl⟩ := block_eq_ok h
  rfl

/-! ## What commands declare -/

namespace Emitter

/-- The declarations that a command may add to the preamble. -/
def Command.Declares : Command → Declaration → Prop
  | declareStruct s, d => structDeclaration s = .ok d
  | declareUniform v, d => uniformDeclaration v = .ok d
  | declareBinding v, d => ∃ sizes id,
    (∃ b, bindingForm sizes id v = .ok (.block b) ∧ d = .bufferBlock b) ∨
      ∃ t, bindingForm sizes id v = .ok (.table t) ∧ d = .table t
  | declareIndices max, d => d = .pushConstants (subIndexFields max)
  | _, _ => False

variable {g g' : Emitter} {c : Command}

/-- An accepted command adds one of its declarations, or none. -/
theorem Transition.declarations_eq (h : Transition g c g') :
    g'.declarations = g.declarations ∨
      ∃ d, c.Declares d ∧ g'.declarations = g.declarations ++ [d] := by
  cases h with
  | declareStruct form => exact Or.inr ⟨_, form, rfl⟩
  | declareUniform first form => exact Or.inr ⟨_, form, rfl⟩
  | declareBlock form => exact Or.inr ⟨_, ⟨_, _, Or.inl ⟨_, form, rfl⟩⟩, rfl⟩
  | declareTable form fresh => exact Or.inr ⟨_, ⟨_, _, Or.inr ⟨_, form, rfl⟩⟩, rfl⟩
  | declareIndices small => exact Or.inr ⟨_, rfl, rfl⟩
  | _ => exact Or.inl rfl

/-- An accepted struct command always adds its declaration. -/
theorem Transition.declareStruct_state {s : StructType} (h : Transition g (.declareStruct s) g') :
    ∃ d, structDeclaration s = .ok d ∧ g' = g.declare d := by
  cases h with
  | declareStruct form => exact ⟨_, form, rfl⟩

/-- Every declaration that a run adds stems from one of its commands. -/
theorem declares_of_chain {calls : List Command} (h : Chain Transition g calls g')
    {d : Declaration} (hd : d ∈ g'.declarations) :
    d ∈ g.declarations ∨ ∃ c ∈ calls, c.Declares d := by
  induction h with
  | refl => exact Or.inl hd
  | @snoc calls c t u _ hT ih =>
    have hearlier (hd : d ∈ t.declarations) :
        d ∈ g.declarations ∨ ∃ c' ∈ calls ++ [c], c'.Declares d := by
      rcases ih hd with hold | ⟨c', hc', hdeclares⟩
      · exact Or.inl hold
      · exact Or.inr ⟨c', List.mem_append_left _ hc', hdeclares⟩
    rcases hT.declarations_eq with hsame | ⟨d', hdeclares, hadded⟩
    · exact hearlier (hsame ▸ hd)
    · rw [hadded, List.mem_append, List.mem_singleton] at hd
      rcases hd with hold | rfl
      · exact hearlier hold
      · exact Or.inr ⟨c, List.mem_append_right _ (List.mem_singleton.mpr rfl), hdeclares⟩

/-- Declarations are only ever added at the end. -/
theorem exists_declarations_eq {calls : List Command} (h : Chain Transition g calls g') :
    ∃ rest, g'.declarations = g.declarations ++ rest := by
  induction h with
  | refl => exact ⟨[], (List.append_nil _).symm⟩
  | snoc _ hT ih =>
    obtain ⟨rest, hrest⟩ := ih
    rcases hT.declarations_eq with hsame | ⟨d, -, hadded⟩
    · exact ⟨rest, hsame.trans hrest⟩
    · exact ⟨rest ++ [d], by rw [hadded, hrest, List.append_assoc]⟩

/-- A declaration is written at the end of the preamble. -/
theorem preamble_declare (g : Emitter) (d : Declaration) :
    (g.declare d).preamble = g.preamble ++ d.text :=
  preambleText_append g.declarations d

/-- A longer list of declarations makes a longer preamble. -/
theorem preamble_of_declarations {rest : List Declaration}
    (h : g'.declarations = g.declarations ++ rest) :
    g'.preamble = g.preamble ++ joinTexts (rest.map Declaration.text) := by
  rw [preamble, h, preambleText, List.map_append, joinTexts_append, ← String.append_assoc]
  rfl

/-- Only a command for sub-indices declares the push-constant block. -/
theorem Command.Declares.of_pushConstants {fields : UInt32}
    (h : c.Declares (.pushConstants fields)) : ∃ max, c = .declareIndices max := by
  cases c with
  | declareStruct s =>
    obtain ⟨_, -, hd⟩ := structDeclaration_eq_ok h
    cases hd
  | declareUniform v =>
    obtain ⟨_, -, hd⟩ := uniformDeclaration_eq_ok h
    cases hd
  | declareBinding v =>
    obtain ⟨_, _, ⟨_, -, hd⟩ | ⟨_, -, hd⟩⟩ := h <;> cases hd
  | declareIndices max => exact ⟨max, rfl⟩
  | _ => exact h.elim

/-- Only a struct command declares a struct, and it declares the struct of its own name. -/
theorem Command.Declares.of_struct {name : String} {fields : List Field}
    (h : c.Declares (.struct name fields)) :
    ∃ s : StructType, c = .declareStruct s ∧ s.name = name := by
  cases c with
  | declareStruct s =>
    obtain ⟨_, -, hd⟩ := structDeclaration_eq_ok h
    cases hd
    exact ⟨s, rfl, rfl⟩
  | declareUniform v =>
    obtain ⟨_, -, hd⟩ := uniformDeclaration_eq_ok h
    cases hd
  | declareBinding v =>
    obtain ⟨_, _, ⟨_, -, hd⟩ | ⟨_, -, hd⟩⟩ := h <;> cases hd
  | declareIndices max => cases h
  | _ => exact h.elim

end Emitter

end GlslEmit
