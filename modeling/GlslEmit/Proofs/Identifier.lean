/-
# Identifiers of a source

The preamble and the header of a source declare identifiers of several kinds.  Some are taken as
they are given, some are made from a given name, and some are made up.  The spelling of an
identifier tells its kind, with two exceptions: a given name may look like anything, and the type of
a struct may look like a value that is passed between stages.

* `Identifier` has one form for each kind, and `Identifier.text` is the spelling;
* `Identifier.eq_of_text`: two identifiers of one spelling are the same, up to the exceptions;
* `Clear` says that the exceptions do not occur among some identifiers;
* `nodup_text_iff`: then, and only then, different identifiers have different spellings;
* `Clear.of_plain`: names without an underscore in front keep clear of each other.
-/
import GlslEmit.Text.Decimal
import GlslEmit.Source.Interface
import GlslEmit.Source.Declaration
import GlslEmit.Proofs.Resource.Table

namespace GlslEmit

/-- What a source declares at global scope. -/
inductive Identifier where
  /-- The type of a struct. -/
  | struct (name : String)
  /-- A member or an instance of a block, or a value of a header, under its given name. -/
  | given (name : String)
  /-- A value that is passed between stages, as one of them declares it. -/
  | passed (stage : Stage) (name : String)
  | uniformBlock
  | bufferBlock (id : UInt32)
  | table (spelling : ResourceSpelling)
  | pushConstants
  | pushConstantFields
  deriving DecidableEq

namespace Identifier

/-- The spelling of an identifier. -/
def text : Identifier → String
  | struct name => structToken name
  | given name => name
  | passed stage name => varyingName stage name
  | uniformBlock => "_UBUFFER0_"
  | bufferBlock id => "_BUFFER" ++ toString id ++ "_"
  | table spelling => spelling.table
  | pushConstants => pushConstantBlock
  | pushConstantFields => pushConstantInstance

/-- A table belongs to the resources of one spelling. -/
def Proper : Identifier → Prop
  | table spelling => ∃ t : ShaderType, t.isBuffer = false ∧ t.resourceSpelling = .ok spelling
  | _ => True

/-! ## Made-up identifiers -/

/-- The kinds of identifiers that are made up, and those of passed values. -/
inductive Kind where
  | passed
  | uniformBlock
  | bufferBlock
  | table
  | pushConstants
  | pushConstantFields
  deriving DecidableEq

/-- The kind of an identifier that is not given by a name alone. -/
def kind? : Identifier → Option Kind
  | struct _ => none
  | given _ => none
  | passed _ _ => some .passed
  | uniformBlock => some .uniformBlock
  | bufferBlock _ => some .bufferBlock
  | table _ => some .table
  | pushConstants => some .pushConstants
  | pushConstantFields => some .pushConstantFields

/-- The first four characters of the identifiers of a kind. -/
def Kind.stems : Kind → List (List Char)
  | passed => Stage.all.map fun s => '_' :: s.shortName.toList.take 3
  | uniformBlock => ["_UBU".toList]
  | bufferBlock => ["_BUF".toList]
  | table => resourceTokens.map fun p => '_' :: p.1.toList.take 3
  | pushConstants => ["_BIN".toList]
  | pushConstantFields => ["_bid".toList]

/-- The first four characters tell the kind. -/
theorem Kind.eq_of_stem {k l : Kind} {stem : List Char} (hk : stem ∈ k.stems)
    (hl : stem ∈ l.stems) : k = l := by
  have hdisjoint : ∀ k ∈ [passed, uniformBlock, bufferBlock, table, pushConstants,
      pushConstantFields], ∀ l ∈ [passed, uniformBlock, bufferBlock, table, pushConstants,
      pushConstantFields], k ≠ l → ∀ stem ∈ k.stems, stem ∉ l.stems := by
    decide +kernel
  have hall (k : Kind) : k ∈ [passed, uniformBlock, bufferBlock, table, pushConstants,
      pushConstantFields] := by
    cases k <;> decide
  by_contra hne
  exact hdisjoint k (hall k) l (hall l) hne stem hk hl

/-- An identifier of a kind begins with one of its stems. -/
theorem stem_mem {i : Identifier} {k : Kind} (hi : i.Proper) (hk : i.kind? = some k) :
    i.text.toList.take 4 ∈ k.stems := by
  cases i with
  | struct name => cases hk
  | given name => cases hk
  | passed s name =>
    cases hk
    refine List.mem_map.mpr ⟨s, Stage.mem_all s, ?_⟩
    cases s <;> simp [text, varyingName, Stage.shortName]
  | uniformBlock =>
    cases hk
    decide
  | bufferBlock id =>
    cases hk
    simp [text, Kind.stems]
  | table spelling =>
    cases hk
    obtain ⟨t, hbuffer, hspelling⟩ := hi
    have hmem := mem_resourceTokens hbuffer hspelling
    refine List.mem_map.mpr ⟨_, hmem, ?_⟩
    have hlong : ∀ p ∈ resourceTokens, 3 ≤ p.1.toList.length := by decide +kernel
    have hthree := hlong _ hmem
    rw [text, table_toList, List.cons_append, List.take_succ_cons, List.append_assoc,
      List.take_append_of_le_length hthree]
  | pushConstants =>
    cases hk
    decide
  | pushConstantFields =>
    cases hk
    decide

/-- A passed value tells its stage and its name. -/
theorem varyingName_injective {s t : Stage} {name name' : String}
    (h : varyingName s name = varyingName t name') : s = t ∧ name = name' := by
  have hchars := congrArg String.toList h
  simp only [varyingName, String.toList_append, List.append_assoc] at hchars
  have hfour (s : Stage) : s.shortName.toList.length = 4 := by
    cases s <;> decide +kernel
  obtain ⟨hstage, hrest⟩ :=
    List.append_inj (List.append_cancel_left hchars) ((hfour s).trans (hfour t).symm)
  refine ⟨?_, String.toList_inj.mp (List.append_cancel_left hrest)⟩
  have hread := Stage.ofShortName?_shortName s
  rw [String.toList_inj.mp hstage, Stage.ofShortName?_shortName] at hread
  exact (Option.some.inj hread).symm

/-- Blocks with different numbers have different names. -/
theorem bufferBlock_text_injective {id id' : UInt32}
    (h : (bufferBlock id).text = (bufferBlock id').text) : id = id' :=
  decimal_injective ((String.append_right_inj _).mp ((String.append_left_inj _).mp h))

/-- Made-up identifiers of one spelling are the same. -/
theorem eq_of_text_of_kind {i j : Identifier} {k l : Kind} (hi : i.Proper) (hj : j.Proper)
    (hk : i.kind? = some k) (hl : j.kind? = some l) (h : i.text = j.text) : i = j := by
  have hstem := stem_mem hi hk
  rw [h] at hstem
  obtain rfl : k = l := Kind.eq_of_stem hstem (stem_mem hj hl)
  cases i with
  | struct name => cases hk
  | given name => cases hk
  | passed s name =>
    cases hk
    cases j with
    | passed t name' =>
      obtain ⟨rfl, rfl⟩ := varyingName_injective h
      rfl
    | _ => cases hl
  | bufferBlock id =>
    cases hk
    cases j with
    | bufferBlock id' => rw [bufferBlock_text_injective h]
    | _ => cases hl
  | table spelling =>
    cases hk
    cases j with
    | table spelling' =>
      obtain ⟨t, hbuffer, hspelling⟩ := hi
      obtain ⟨t', hbuffer', hspelling'⟩ := hj
      exact congrArg table (table_injective hbuffer hbuffer' hspelling hspelling' h).1
    | _ => cases hl
  | uniformBlock =>
    cases hk
    cases j with
    | uniformBlock => rfl
    | _ => cases hl
  | pushConstants =>
    cases hk
    cases j with
    | pushConstants => rfl
    | _ => cases hl
  | pushConstantFields =>
    cases hk
    cases j with
    | pushConstantFields => rfl
    | _ => cases hl

/-! ## Structs -/

/-- A made-up identifier of a struct's spelling is a passed value. -/
theorem kind_of_structToken {name : String} {i : Identifier} {k : Kind} (hk : i.kind? = some k)
    (h : structToken name = i.text) : k = .passed := by
  have hlast : i.text.toList.getLast? = some 't' := by
    rw [← h, structToken, String.toList_append]
    exact List.getLast?_append_of_ne_nil _ (by decide)
  -- the others end with something else
  cases i with
  | struct name => cases hk
  | given name => cases hk
  | passed s name =>
    cases hk
    rfl
  | uniformBlock => exact absurd hlast (by decide)
  | bufferBlock id =>
    rw [text, String.toList_append, List.getLast?_append_of_ne_nil _ (by decide)] at hlast
    exact absurd hlast (by decide)
  | table spelling =>
    rw [text, table_toList, List.getLast?_append_of_ne_nil _ (by decide)] at hlast
    exact absurd hlast (by decide)
  | pushConstants => exact absurd hlast (by decide)
  | pushConstantFields => exact absurd hlast (by decide)

/-- Two identifiers of one spelling are the same, unless one of them was given or they are a struct
and a passed value. -/
theorem eq_of_text {i j : Identifier} (hi : i.Proper) (hj : j.Proper) (h : i.text = j.text) :
    i = j ∨ (∃ name, i = given name) ∨ (∃ name, j = given name) ∨
      (∃ name s name', i = struct name ∧ j = passed s name') ∨
      ∃ name s name', j = struct name ∧ i = passed s name' := by
  have hpassed {i : Identifier} (hk : i.kind? = some .passed) : ∃ s name, i = passed s name := by
    cases i with
    | passed s name => exact ⟨s, name, rfl⟩
    | _ => cases hk
  cases hk : i.kind? with
  | some k =>
    cases hl : j.kind? with
    | some l => exact Or.inl (eq_of_text_of_kind hi hj hk hl h)
    | none =>
      cases j with
      | struct name =>
        obtain rfl := kind_of_structToken hk h.symm
        obtain ⟨s, name', rfl⟩ := hpassed hk
        exact Or.inr (Or.inr (Or.inr (Or.inr ⟨name, s, name', rfl, rfl⟩)))
      | given name => exact Or.inr (Or.inr (Or.inl ⟨name, rfl⟩))
      | _ => cases hl
  | none =>
    cases i with
    | given name => exact Or.inr (Or.inl ⟨name, rfl⟩)
    | struct name =>
      cases hl : j.kind? with
      | some l =>
        obtain rfl := kind_of_structToken hl h
        obtain ⟨s, name', rfl⟩ := hpassed hl
        exact Or.inr (Or.inr (Or.inr (Or.inl ⟨name, s, name', rfl, rfl⟩)))
      | none =>
        cases j with
        | struct name' => exact Or.inl (congrArg struct (structToken_injective h))
        | given name' => exact Or.inr (Or.inr (Or.inl ⟨name', rfl⟩))
        | _ => cases hl
    | _ => cases hk

/-! ## Lists of identifiers -/

/-- No given name is the spelling of another identifier, and no struct is spelled like a passed
value. -/
structure Clear (identifiers : List Identifier) : Prop where
  given : ∀ name, .given name ∈ identifiers → ∀ i ∈ identifiers, i.text = name → i = .given name
  struct : ∀ name s name', .struct name ∈ identifiers → .passed s name' ∈ identifiers →
    structToken name ≠ varyingName s name'

/-- Different identifiers have different spellings exactly if they keep clear of each other. -/
theorem nodup_text_iff {identifiers : List Identifier} (hnodup : identifiers.Nodup)
    (hproper : ∀ i ∈ identifiers, i.Proper) :
    (identifiers.map text).Nodup ↔ Clear identifiers := by
  rw [List.nodup_map_iff_inj_on hnodup]
  constructor
  · intro hinj
    refine ⟨fun name hname i hi htext => hinj i hi _ hname htext, fun name s name' hs hp htext => ?_⟩
    cases hinj _ hs _ hp htext
  · intro hclear i hi j hj htext
    rcases eq_of_text (hproper i hi) (hproper j hj) htext with rfl | ⟨name, rfl⟩ | ⟨name, rfl⟩ |
      ⟨name, s, name', rfl, rfl⟩ | ⟨name, s, name', rfl, rfl⟩
    · rfl
    · exact (hclear.given name hi j hj htext.symm).symm
    · exact hclear.given name hj i hi htext
    · exact absurd htext (hclear.struct name s name' hi hj)
    · exact absurd htext.symm (hclear.struct name s name' hj hi)

/-- Whether a name begins with an underscore. -/
def isReserved (name : String) : Bool := name.toList.head? = some '_'

/-- What is made up begins with an underscore. -/
theorem isReserved_text {i : Identifier} {k : Kind} (hi : i.Proper) (hk : i.kind? = some k) :
    isReserved i.text = true := by
  have hstem := stem_mem hi hk
  have hhead : ∀ stem ∈ k.stems, stem.head? = some '_' := by
    cases k <;> decide +kernel
  have hfirst := hhead _ hstem
  rw [List.head?_take, if_neg (by decide)] at hfirst
  rw [isReserved, hfirst]
  rfl

/-- Identifiers keep clear of each other if no given name and no struct begins with an underscore,
and no given name is the type of a struct. -/
theorem Clear.of_plain {identifiers : List Identifier} (hproper : ∀ i ∈ identifiers, i.Proper)
    (hgiven : ∀ name, .given name ∈ identifiers → isReserved name = false)
    (hstruct : ∀ name, .struct name ∈ identifiers → isReserved name = false)
    (htype : ∀ name, .struct name ∈ identifiers → .given (structToken name) ∉ identifiers) :
    Clear identifiers := by
  refine ⟨fun name hname i hi htext => ?_, fun name s name' hs hp htext => ?_⟩
  · cases hk : i.kind? with
    | some k =>
      have hreserved := isReserved_text (hproper i hi) hk
      rw [htext, hgiven name hname] at hreserved
      cases hreserved
    | none =>
      cases i with
      | given other =>
        exact congrArg Identifier.given htext
      | struct other =>
        obtain rfl : structToken other = name := htext
        exact absurd hname (htype other hi)
      | _ => cases hk
  · -- the underscore in front of a passed value would belong to the name of the struct
    have hchars : name.toList ++ ['_', 't'] = '_' :: (s.shortName.toList ++ '_' :: name'.toList) := by
      have htoList := congrArg String.toList htext
      simpa [structToken, varyingName] using htoList
    have hplain := hstruct name hs
    cases hname : name.toList with
    | nil =>
      rw [hname] at hchars
      cases s <;> simp [Stage.shortName] at hchars
    | cons c rest =>
      rw [hname, List.cons_append, List.cons.injEq] at hchars
      rw [isReserved, hname, hchars.1] at hplain
      cases hplain

end Identifier

end GlslEmit
