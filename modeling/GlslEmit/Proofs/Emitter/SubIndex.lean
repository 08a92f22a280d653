/-
# Packed sub-indices are read back

The words behind the push-constant block hold two sub-indices each.  A shader reaches them by the
text of an expression alone, so the text is read here as a shader would read it: the name of the
block's instance and of one of its fields, an operator on 32-bit words, and a literal.

* `packed` fills the words, and `getElem?_packed` says what each word holds;
* `FieldExpression.parse?` reads a text, and `FieldExpression.value?` is the value of what was read;
* `SubIndexPlace.parse?_text` and `SubIndexPlace.value?_expression`: the text of a place stands for
  `SubIndexPlace.read`;
* `SubIndexPlace.read_packed`: reading at the place of a sub-index gives it back;
* `unpack_reads_field`: the line that reads a sub-index names a declared field;
* `packed_round_trip` puts these together with the block that is declared.
-/
import GlslEmit.Text.Decimal
import GlslEmit.Proofs.Emitter.Transition

namespace GlslEmit

/-! ## Packing -/

/-- The word with one value in its low half and one in its high half. -/
def joinHalves (low high : UInt16) : UInt32 := low.toUInt32 ||| (high.toUInt32 <<< 16)

/-- Values in the halves of words, low halves first.  An odd number of values leaves half a word,
which holds the filler. -/
def packed (filler : UInt16) : List UInt16 → List UInt32
  | [] => []
  | [low] => [joinHalves low filler]
  | low :: high :: rest => joinHalves low high :: packed filler rest

theorem toNat_joinHalves (low high : UInt16) :
    (joinHalves low high).toNat = high.toNat * 65536 + low.toNat := by
  have hlow := low.toNat_lt
  have hhigh := high.toNat_lt
  have hplace : (16 : UInt32).toNat % 32 = 16 := rfl
  have hshifted : high.toNat <<< 16 < 2 ^ 32 := by
    rw [Nat.shiftLeft_eq]
    omega
  rw [joinHalves, UInt32.toNat_or, UInt32.toNat_shiftLeft, UInt16.toNat_toUInt32,
    UInt16.toNat_toUInt32, hplace, Nat.mod_eq_of_lt hshifted, Nat.or_comm,
    ← Nat.shiftLeft_add_eq_or_of_lt hlow, Nat.shiftLeft_eq]

/-- The low half is what the mask leaves. -/
theorem joinHalves_and (low high : UInt16) : joinHalves low high &&& 0xFFFF = low.toUInt32 := by
  have hlow := low.toNat_lt
  have hmask : (0xFFFF : UInt32).toNat = 2 ^ 16 - 1 := rfl
  rw [← UInt32.toNat_inj, UInt32.toNat_and, toNat_joinHalves, hmask, Nat.and_two_pow_sub_one_eq_mod,
    UInt16.toNat_toUInt32]
  omega

/-- The high half is what the shift leaves. -/
theorem joinHalves_shiftRight (low high : UInt16) :
    joinHalves low high >>> 16 = high.toUInt32 := by
  have hlow := low.toNat_lt
  have hplace : (16 : UInt32).toNat % 32 = 16 := rfl
  rw [← UInt32.toNat_inj, UInt32.toNat_shiftRight, toNat_joinHalves, hplace,
    Nat.shiftRight_eq_div_pow, UInt16.toNat_toUInt32]
  omega

theorem length_packed (filler : UInt16) (values : List UInt16) :
    (packed filler values).length = (values.length + 1) / 2 := by
  fun_induction packed filler values with
  | case1 => rfl
  | case2 low => simp
  | case3 low high rest ih =>
    simp only [List.length_cons, ih]
    omega

/-- Each word holds the value at the double of its position, and the one behind it. -/
theorem getElem?_packed (filler : UInt16) (values : List UInt16) (k : Nat) :
    (packed filler values)[k]? =
      values[2 * k]?.map fun low => joinHalves low (values[2 * k + 1]?.getD filler) := by
  fun_induction packed filler values generalizing k with
  | case1 => rfl
  | case2 low => cases k <;> simp
  | case3 low high rest ih =>
    cases k with
    | zero => rfl
    | succ k =>
      have hdouble : 2 * (k + 1) = 2 * k + 2 := by omega
      rw [List.getElem?_cons_succ, ih, hdouble]
      rfl

/-! ## Places -/

theorem toNat_subIndexFields (max : UInt32) : (subIndexFields max).toNat = max.toNat / 2 + 1 := by
  have hmax := max.toNat_lt
  have htwo : (2 : UInt32).toNat = 2 := rfl
  have hone : (1 : UInt32).toNat = 1 := rfl
  rw [subIndexFields, UInt32.toNat_add, UInt32.toNat_div, htwo, hone]
  omega

namespace SubIndexPlace

theorem toNat_field_of (index : UInt32) : (of index).field.toNat = index.toNat / 2 := by
  have htwo : (2 : UInt32).toNat = 2 := rfl
  rw [of, UInt32.toNat_div, htwo]

theorem half_of (index : UInt32) :
    (of index).half = if index.toNat % 2 = 0 then .low else .high := by
  have htwo : (2 : UInt32).toNat = 2 := rfl
  have hzero : (0 : UInt32).toNat = 0 := rfl
  simp only [of, ← UInt32.toNat_inj, UInt32.toNat_mod, htwo, hzero]

/-- Different sub-indices lie at different places. -/
theorem of_injective {index index' : UInt32} (h : of index = of index') : index = index' := by
  have hfield := congrArg (fun p => p.field.toNat) h
  have hhalf := congrArg SubIndexPlace.half h
  simp only [toNat_field_of] at hfield
  rw [half_of, half_of] at hhalf
  rw [← UInt32.toNat_inj]
  split at hhalf <;> split at hhalf <;> first | omega | cases hhalf

/-- The field of a sub-index is declared by the block for any larger one. -/
theorem field_of_lt {index max : UInt32} (h : index ≤ max) :
    (of index).field < subIndexFields max := by
  have hle := UInt32.le_iff_toNat_le.mp h
  rw [UInt32.lt_iff_toNat_lt, toNat_subIndexFields, toNat_field_of]
  omega

/-- Reading at the place of a sub-index gives back what was packed there. -/
theorem read_packed {values : List UInt16} {index : UInt32} {value : UInt16}
    (h : values[index.toNat]? = some value) (filler : UInt16) :
    ∃ word, (packed filler values)[(of index).field.toNat]? = some word ∧
      (of index).read (fun _ => word) = value.toUInt32 := by
  unfold read
  rw [toNat_field_of, getElem?_packed, half_of]
  by_cases heven : index.toNat % 2 = 0
  · have hplace : 2 * (index.toNat / 2) = index.toNat := by omega
    rw [if_pos heven, hplace, h]
    exact ⟨_, rfl, joinHalves_and _ _⟩
  · have hplace : 2 * (index.toNat / 2) + 1 = index.toNat := by omega
    -- there is a value in the low half too
    have hlength : 2 * (index.toNat / 2) < values.length := by
      have hindex := (List.getElem?_eq_some_iff.mp h).1
      omega
    rw [if_neg heven, hplace, h, List.getElem?_eq_getElem hlength]
    exact ⟨_, rfl, joinHalves_shiftRight _ _⟩

end SubIndexPlace

/-! ## Expressions -/

/-- The operators of the expressions that read a sub-index. -/
inductive BitOperator where
  | and
  | shiftRight
  deriving DecidableEq

namespace BitOperator

/-- The operator of a token. -/
def ofToken? : List Char → Option BitOperator
  | ['&'] => some and
  | ['>', '>'] => some shiftRight
  | _ => none

/-- The operation on words. -/
def apply : BitOperator → UInt32 → UInt32 → UInt32
  | and, a, b => a &&& b
  | shiftRight, a, b => a >>> b

end BitOperator

/-- The number that some digits stand for in a base up to sixteen. -/
def numeral? (base : Nat) : List Char → Option Nat
  | [] => none
  | digits => digits.foldlM (fun n c =>
      (("0123456789ABCDEF".toList.take base).idxOf? c.toUpper).map (base * n + ·)) 0

/-- The word that a literal stands for, in base sixteen behind `0x` and in base ten otherwise. -/
def literal? (text : List Char) : Option UInt32 :=
  let number? := match text with
    | '0' :: 'x' :: digits => numeral? 16 digits
    | digits => numeral? 10 digits
  number?.bind fun n => if n < UInt32.size then some (UInt32.ofNat n) else none

/-- An operator between a field of a block, under the name of the block's instance, and a word. -/
structure FieldExpression where
  block : String
  field : String
  operator : BitOperator
  operand : UInt32
  deriving DecidableEq

namespace FieldExpression

/-- The text between two parentheses. -/
def unbracketed? : List Char → Option (List Char)
  | '(' :: rest => if rest.getLast? = some ')' then some rest.dropLast else none
  | _ => none

/-- Reads an expression: in parentheses, a path, an operator and a literal with blanks between
them, where the path is the name of a block and of its field with a dot between them. -/
def parse? (text : String) : Option FieldExpression :=
  match (unbracketed? text.toList).map (List.splitOn ' ') with
  | some [path, operator, literal] =>
    match path.splitOn '.', BitOperator.ofToken? operator, literal? literal with
    | [block, field], some operator, some operand =>
      some ⟨String.ofList block, String.ofList field, operator, operand⟩
    | _, _, _ => none
  | _ => none

/-- The value of an expression, when the fields of the push-constant block have the given names and
hold the given words. -/
def value? (names : List String) (words : List UInt32) (e : FieldExpression) : Option UInt32 :=
  if e.block = pushConstantInstance then
    ((names.idxOf? e.field).bind (words[·]?)).map (e.operator.apply · e.operand)
  else none

/-- An expression is read part by part, as long as the separators stand nowhere else. -/
theorem parse?_of_parts {text : String} {block field token literal : List Char}
    {operator : BitOperator} {operand : UInt32}
    (htext : text.toList =
      '(' :: (block ++ '.' :: field ++ ' ' :: (token ++ ' ' :: literal) ++ [')']))
    (hpath : ' ' ∉ block ++ '.' :: field) (hblock : '.' ∉ block) (hfield : '.' ∉ field)
    (htoken : ' ' ∉ token) (hliteral : ' ' ∉ literal)
    (hoperator : BitOperator.ofToken? token = some operator)
    (hoperand : literal? literal = some operand) :
    parse? text = some ⟨String.ofList block, String.ofList field, operator, operand⟩ := by
  have hinner : unbracketed? text.toList =
      some (block ++ '.' :: field ++ ' ' :: (token ++ ' ' :: literal)) := by
    rw [htext, unbracketed?, if_pos List.getLast?_concat, List.dropLast_concat]
  have hparts : (block ++ '.' :: field ++ ' ' :: (token ++ ' ' :: literal)).splitOn ' ' =
      [block ++ '.' :: field, token, literal] := by
    rw [List.splitOn_append_cons_self_of_not_mem hpath,
      List.splitOn_append_cons_self_of_not_mem htoken, List.splitOn_eq_singleton hliteral]
  have hnames : (block ++ '.' :: field).splitOn '.' = [block, field] := by
    rw [List.splitOn_append_cons_self_of_not_mem hblock, List.splitOn_eq_singleton hfield]
  simp only [parse?, hinner, Option.map_some, hparts, hnames, hoperator, hoperand]

end FieldExpression

/-- The name of a field is a word and digits. -/
theorem notMem_subIndexField {c : Char} (field : UInt32) (hdigit : c.isDigit = false)
    (hword : c ∉ "index".toList) : c ∉ (subIndexField field).toList := by
  rw [subIndexField, String.toList_append, List.mem_append, not_or]
  refine ⟨hword, fun hc => ?_⟩
  rw [isDigit_of_mem_decimal hc] at hdigit
  cases hdigit

theorem subIndexField_injective {field field' : UInt32}
    (h : subIndexField field = subIndexField field') : field = field' :=
  decimal_injective ((String.append_right_inj _).mp h)

theorem subIndexField_of (index : UInt32) :
    subIndexField (SubIndexPlace.of index).field = "index" ++ toString (index.toNat / 2) := by
  show "index" ++ toString (SubIndexPlace.of index).field.toNat = _
  rw [SubIndexPlace.toNat_field_of]

namespace SubIndexPlace

variable {p q : SubIndexPlace}

/-- The expression that the text of a place stands for. -/
def expression (p : SubIndexPlace) : FieldExpression :=
  match p.half with
  | .low => ⟨pushConstantInstance, subIndexField p.field, .and, 0xFFFF⟩
  | .high => ⟨pushConstantInstance, subIndexField p.field, .shiftRight, 16⟩

theorem field_expression (p : SubIndexPlace) : p.expression.field = subIndexField p.field := by
  obtain ⟨field, half⟩ := p
  cases half <;> rfl

theorem block_expression (p : SubIndexPlace) : p.expression.block = "_bidx_" := by
  obtain ⟨field, half⟩ := p
  cases half <;> rfl

/-- The text of a place is read as its expression. -/
theorem parse?_text (p : SubIndexPlace) : FieldExpression.parse? p.text = some p.expression := by
  obtain ⟨field, half⟩ := p
  have hdot : '.' ∉ (subIndexField field).toList := notMem_subIndexField field rfl (by decide)
  have hblank : ' ' ∉ (subIndexField field).toList := notMem_subIndexField field rfl (by decide)
  have hpath : ' ' ∉ pushConstantInstance.toList ++ '.' :: (subIndexField field).toList := by
    simpa [pushConstantInstance] using hblank
  -- what stands behind the path depends on the half
  have hread {text : String} (token literal : List Char) {operator : BitOperator}
      {operand : UInt32} (htext : text.toList = '(' :: (pushConstantInstance.toList ++
        '.' :: (subIndexField field).toList ++ ' ' :: (token ++ ' ' :: literal) ++ [')']))
      (htoken : ' ' ∉ token) (hliteral : ' ' ∉ literal)
      (hoperator : BitOperator.ofToken? token = some operator)
      (hoperand : literal? literal = some operand) :
      FieldExpression.parse? text =
        some ⟨pushConstantInstance, subIndexField field, operator, operand⟩ := by
    rw [FieldExpression.parse?_of_parts htext hpath (by decide) hdot htoken hliteral hoperator
      hoperand, String.ofList_toList, String.ofList_toList]
  cases half with
  | low =>
    have hliteral : literal? "0xFFFF".toList = some 0xFFFF := by decide
    exact hread ['&'] "0xFFFF".toList (by simp [text]) (by decide) (by decide) rfl hliteral
  | high =>
    have hliteral : literal? "16".toList = some 16 := by decide
    exact hread ['>', '>'] "16".toList (by simp [text]) (by decide) (by decide) rfl hliteral

/-- The text for a sub-index names the field of its number halved. -/
theorem text_of (index : UInt32) : (of index).text =
    "(_bidx_.index" ++ toString (index.toNat / 2) ++
      (if index.toNat % 2 = 0 then " & 0xFFFF)" else " >> 16)") := by
  have hpath : "(" ++ (pushConstantInstance ++ "." ++ "index") = "(_bidx_.index" := by decide
  rw [text, subIndexField_of, ← hpath]
  by_cases heven : index.toNat % 2 = 0
  · simp only [half_of, if_pos heven, String.append_assoc]
  · simp only [half_of, if_neg heven, String.append_assoc]

/-- Where the field of a place holds a word, the expression has the value that is read there. -/
theorem value?_expression {names : List String} {words : List UInt32} {k : Nat} {word : UInt32}
    (hname : names.idxOf? (subIndexField p.field) = some k) (hword : words[k]? = some word) :
    p.expression.value? names words = some (p.read fun _ => word) := by
  obtain ⟨field, half⟩ := p
  simp only at hname
  cases half <;> simp [FieldExpression.value?, expression, read, hname, hword, BitOperator.apply]

/-- Different places have different texts. -/
theorem text_injective (h : p.text = q.text) : p = q := by
  have hread : some p.expression = some q.expression := by
    rw [← parse?_text, ← parse?_text, h]
  obtain ⟨field, half⟩ := p
  obtain ⟨field', half'⟩ := q
  cases half <;> cases half' <;> simp [expression] at hread ⊢
  · exact subIndexField_injective hread
  · exact subIndexField_injective hread

end SubIndexPlace

theorem subIndexLocal_injective {index index' : UInt32}
    (h : subIndexLocal index = subIndexLocal index') : index = index' :=
  decimal_injective ((String.append_right_inj _).mp ((String.append_left_inj _).mp h))

/-! ## The declared fields -/

/-- The names of the first fields of the push-constant block. -/
def fieldNames (count : UInt32) : List String :=
  (List.range count.toNat).map fun k => "index" ++ toString k

theorem subIndexField_ofNat {k : Nat} (h : k < UInt32.size) :
    subIndexField (UInt32.ofNat k) = "index" ++ toString k := by
  show "index" ++ toString (UInt32.ofNat k).toNat = _
  rw [UInt32.toNat_ofNat_of_lt' h]

/-- A field is declared in its place. -/
theorem idxOf?_fieldNames {field count : UInt32} (h : field < count) :
    (fieldNames count).idxOf? (subIndexField field) = some field.toNat := by
  have hlt := UInt32.lt_iff_toNat_lt.mp h
  have hlength : field.toNat < (fieldNames count).length := by simpa [fieldNames] using hlt
  have hfound : (fieldNames count)[field.toNat] = subIndexField field := by
    simp only [fieldNames, List.getElem_map, List.getElem_range]
    rfl
  rw [List.idxOf?_eq_some_iff]
  refine ⟨hlength, hfound, fun j hj hsame => ?_⟩
  -- an earlier field has another number
  have hsmall : j < UInt32.size := Nat.lt_trans (Nat.lt_trans hj hlt) count.toNat_lt
  simp only [fieldNames, List.getElem_map, List.getElem_range] at hsame
  rw [← subIndexField_ofNat hsmall] at hsame
  have hfield := congrArg UInt32.toNat (subIndexField_injective hsame)
  rw [UInt32.toNat_ofNat_of_lt' hsmall] at hfield
  omega

theorem subIndexField_mem {field count : UInt32} (h : field < count) :
    subIndexField field ∈ fieldNames count := by
  refine List.isSome_idxOf?.mp ?_
  rw [idxOf?_fieldNames h]
  rfl

/-- A text between two others that are written in three parts each. -/
theorem bracketed_text {a b c d e f opening closing : String} (text : String)
    (hopen : a ++ b ++ c = opening) (hclose : d ++ (e ++ f) = closing) :
    a ++ b ++ c ++ text ++ d ++ e ++ f = opening ++ text ++ closing := by
  rw [hopen, ← hclose]
  simp only [String.append_assoc]

/-- The block declares its fields in order, each as a word. -/
theorem text_of_fieldNames (count : UInt32) : (Declaration.pushConstants count).text =
    "layout (push_constant) uniform _BINDING_INDICES_ \x7b\n" ++
      joinTexts ((fieldNames count).map fun name => "\tuint " ++ name ++ ";\n") ++
      "\x7d _bidx_;\n\n" := by
  have hfields : pushConstantFields count =
      joinTexts ((fieldNames count).map fun name => "\tuint " ++ name ++ ";\n") := by
    rw [pushConstantFields, fieldNames, List.map_map]
    congr 1
    refine List.map_congr_left fun k hk => ?_
    have hsmall : k < UInt32.size := Nat.lt_trans (List.mem_range.mp hk) count.toNat_lt
    rw [subIndexField_ofNat hsmall]
    rfl
  have hopen : "layout (push_constant) uniform " ++ pushConstantBlock ++ " \x7b\n" =
      "layout (push_constant) uniform _BINDING_INDICES_ \x7b\n" := by decide
  have hclose : "\x7d " ++ (pushConstantInstance ++ ";\n\n") = "\x7d _bidx_;\n\n" := by decide
  calc (Declaration.pushConstants count).text
      = "layout (push_constant) uniform _BINDING_INDICES_ \x7b\n" ++ pushConstantFields count ++
          "\x7d _bidx_;\n\n" := bracketed_text _ hopen hclose
    _ = _ := congrArg (fun fields => _ ++ fields ++ _) hfields

/-- The block writes the declaration of each of its fields. -/
theorem exists_text_eq_of_field {count : UInt32} {name : String} (h : name ∈ fieldNames count) :
    ∃ before after, (Declaration.pushConstants count).text =
      before ++ ("\tuint " ++ name ++ ";\n") ++ after := by
  obtain ⟨x, y, hfields⟩ := exists_joinTexts_eq
    (List.mem_map_of_mem (f := fun name => "\tuint " ++ name ++ ";\n") h)
  refine ⟨"layout (push_constant) uniform _BINDING_INDICES_ \x7b\n" ++ x,
    y ++ "\x7d _bidx_;\n\n", ?_⟩
  rw [text_of_fieldNames, hfields]
  simp only [String.append_assoc]

/-- The line that reads a sub-index reads it from a field that the block for any larger sub-index
declares. -/
theorem unpack_reads_field {index max : UInt32} (h : index ≤ max) (depth : Nat) :
    ∃ expression e, IndentedLine.text ⟨depth, .unpack index⟩ =
        indentation depth ++ "uint _bidx" ++ toString index ++ "_ = " ++ expression ++ ";\n" ∧
      expression = "(_bidx_.index" ++ toString (index.toNat / 2) ++
        (if index.toNat % 2 = 0 then " & 0xFFFF)" else " >> 16)") ∧
      FieldExpression.parse? expression = some e ∧ e.block = "_bidx_" ∧
      e.field = "index" ++ toString (index.toNat / 2) ∧
      ∃ before after, (Declaration.pushConstants (subIndexFields max)).text =
        before ++ ("\tuint " ++ e.field ++ ";\n") ++ after := by
  refine ⟨_, _, IndentedLine.text_unpack depth index, SubIndexPlace.text_of index,
    SubIndexPlace.parse?_text _, SubIndexPlace.block_expression _, ?_, ?_⟩
  · rw [SubIndexPlace.field_expression, subIndexField_of]
  · rw [SubIndexPlace.field_expression]
    exact exists_text_eq_of_field (subIndexField_mem (SubIndexPlace.field_of_lt h))

/-- **Packed sub-indices are read back.**  Take values for the sub-indices up to a largest one below
64, two to a word.  The push-constant block for that largest sub-index is accepted, and the number
that is returned is both the number of its fields and the number of the words.  The text for each of
the sub-indices is an expression that names a field of the block, and its value is the value of the
sub-index.  Any two sub-indices have different texts and different local variables. -/
theorem packed_round_trip :
    (∀ (max : UInt32) (values : List UInt16) (filler : UInt16) (g : Emitter), max < 64 →
      values.length = max.toNat + 1 →
        ∃ count, Emitter.declareIndices max g =
            .accepted (g.declare (.pushConstants count)) count [] ∧
          (Declaration.pushConstants count).text =
            "layout (push_constant) uniform _BINDING_INDICES_ \x7b\n" ++
              joinTexts ((fieldNames count).map fun name => "\tuint " ++ name ++ ";\n") ++
              "\x7d _bidx_;\n\n" ∧
          (packed filler values).length = count.toNat ∧
          ∀ index ≤ max, ∃ e value,
            FieldExpression.parse? (SubIndexPlace.of index).text = some e ∧
              e.field ∈ fieldNames count ∧ values[index.toNat]? = some value ∧
              e.value? (fieldNames count) (packed filler values) = some value.toUInt32) ∧
    (Function.Injective fun index => (SubIndexPlace.of index).text) ∧
    Function.Injective subIndexLocal := by
  refine ⟨fun max values filler g small hlength => ?_, fun index index' h => ?_,
    fun index index' h => subIndexLocal_injective h⟩
  · refine ⟨subIndexFields max, Emitter.declareIndices_accepted small, text_of_fieldNames _, ?_,
      fun index hindex => ?_⟩
    · rw [length_packed, toNat_subIndexFields]
      omega
    · have hle := UInt32.le_iff_toNat_le.mp hindex
      have hvalue : values[index.toNat]? = some values[index.toNat] :=
        List.getElem?_eq_getElem (by omega)
      obtain ⟨word, hword, hread⟩ := SubIndexPlace.read_packed hvalue filler
      have hname := idxOf?_fieldNames (SubIndexPlace.field_of_lt hindex)
      refine ⟨_, _, SubIndexPlace.parse?_text _, ?_, hvalue, ?_⟩
      · rw [SubIndexPlace.field_expression]
        exact subIndexField_mem (SubIndexPlace.field_of_lt hindex)
      · rw [SubIndexPlace.value?_expression hname hword, hread]
  · exact SubIndexPlace.of_injective (SubIndexPlace.text_injective h)

/-- Three values take two words, and the second value is read from the high half of the first. -/
theorem packed_round_trip_three :
    let values : List UInt16 := [7, 65535, 42]
    (2 : UInt32) < 64 ∧ values.length = (2 : UInt32).toNat + 1 ∧
      ∃ count : UInt32, (packed 0 values).length = count.toNat ∧
        ∃ e, FieldExpression.parse? "(_bidx_.index0 >> 16)" = some e ∧
          e.field ∈ fieldNames count ∧
          e.value? (fieldNames count) (packed 0 values) = some 65535 := by
  intro values
  obtain ⟨hread, -⟩ := packed_round_trip
  obtain ⟨count, -, -, hlength, hindices⟩ :=
    hread 2 values 0 (Emitter.new .standard) (by decide) rfl
  obtain ⟨e, value, hparsed, hfield, hvalue, hword⟩ := hindices 1 (by decide)
  have htext : (SubIndexPlace.of 1).text = "(_bidx_.index0 >> 16)" := by decide
  obtain rfl : (65535 : UInt16) = value := Option.some.inj hvalue
  rw [htext] at hparsed
  exact ⟨by decide, rfl, count, hlength, e, hparsed, hfield, hword⟩

end GlslEmit
