/-
# Names of shared tables

A table is found again by its name alone, and the name is put together from a token and a
qualifier.  It tells both of them, since neither contains the underscore that stands between them.
The token tells the class of the resource as well, since no two classes share a token.

* `resourceTokens` lists the tokens of all resources that are no buffers, with their classes;
* `table_injective`: the name of a table determines its spelling and its class;
* `bindingForm_eq_table_iff` says which bindings need which table;
* `bindingForm_of_same_table`: whatever is called by the name of a table needs that table.
-/
import Mathlib.Data.List.Nodup
import Mathlib.Data.List.Basic
import GlslEmit.Emitter.Preamble

namespace GlslEmit

/-! ## Qualifiers -/

namespace Qualifier

/-- Every layout qualifier. -/
def all : List Qualifier :=
  [.std140, .std430] ++
    [Channels.r, Channels.rg, Channels.rgba].flatMap fun channels =>
      [Encoding.uint32, Encoding.int32, Encoding.float32, Encoding.unorm8].map fun encoding =>
        .format ⟨channels, encoding⟩

theorem mem_all (q : Qualifier) : q ∈ all := by
  cases q with
  | std140 => decide
  | std430 => decide
  | format f =>
    obtain ⟨channels, encoding⟩ := f
    cases channels <;> cases encoding <;> decide

theorem text_injective {q q' : Qualifier} (h : q.text = q'.text) : q = q' := by
  have hnodup : (all.map text).Nodup := by decide
  exact List.inj_on_of_nodup_map hnodup (mem_all q) (mem_all q') h

theorem underscore_notMem_text (q : Qualifier) : '_' ∉ q.text.toList := by
  have hall : ∀ q ∈ all, '_' ∉ q.text.toList := by decide
  exact hall q (mem_all q)

end Qualifier

/-! ## Tokens -/

/-- The endings of image tokens. -/
def tokenEndings : List String := ["1D", "2D", "3D", "1DArray", "2DArray", "Cube", "CubeArray"]

/-- The letters in front of image tokens. -/
def texelLetters : List String := ["u", "i", ""]

/-- The tokens around a word, one for each letter and each ending. -/
def tokensAround (word : String) : List String :=
  texelLetters.flatMap fun letter => tokenEndings.map fun ending => letter ++ word ++ ending

/-- The tokens of all resources that are no buffers, with their classes.  Combined samplers,
sampled images and input attachments have a token, but no class. -/
def resourceTokens : List (String × Option ResourceClass) :=
  [("sampler", some .samplers), ("samplerShadow", some .samplers)] ++
  tokenEndings.map (fun ending => ("sampler" ++ ending, none)) ++
  (tokensAround "texture").map (fun token => (token, none)) ++
  (tokensAround "image").map (fun token => (token, some .images)) ++
  [("textureBuffer", some .readOnlyTexels), ("imageBuffer", some .readWriteTexels)] ++
  texelLetters.map fun letter => (letter ++ "subpassInput", none)

theorem mem_tokenEndings {dims : Dims} {ending : String} (h : dims.tokenEnding? = some ending) :
    ending ∈ tokenEndings := by
  cases dims <;> cases h <;> decide

theorem mem_texelLetters (base : ScalarKind) : base.texelLetter ∈ texelLetters := by
  cases base <;> decide

theorem mem_tokensAround (base : ScalarKind) (word : String) {dims : Dims} {ending : String}
    (h : dims.tokenEnding? = some ending) :
    base.texelLetter ++ word ++ ending ∈ tokensAround word := by
  rw [tokensAround, List.mem_flatMap]
  exact ⟨_, mem_texelLetters base, List.mem_map.mpr ⟨_, mem_tokenEndings h, rfl⟩⟩

variable {t t' : ShaderType} {s s' : ResourceSpelling}

/-- The list of tokens is complete. -/
theorem mem_resourceTokens (hbuffer : t.isBuffer = false) (h : t.resourceSpelling = .ok s) :
    (s.token, ResourceClass.of? t) ∈ resourceTokens := by
  simp only [resourceTokens, List.mem_append, List.mem_map]
  cases t with
  | void => cases h
  | numeric shape => cases h
  | struct fields => cases h
  | buffer kind body => cases hbuffer
  | sampler dims => cases dims <;> cases h <;> simp [ResourceClass.of?]
  | boundSampler dims =>
    rw [ShaderType.resourceSpelling] at h
    split at h
    · cases h
    · next ending hending =>
      cases h
      simp [ResourceClass.of?, mem_tokenEndings hending]
  | texture dims texel =>
    rw [ShaderType.resourceSpelling] at h
    split at h
    · cases h
    · next ending hending =>
      cases h
      simp [ResourceClass.of?, mem_tokensAround texel.base "texture" hending]
  | image dims texel =>
    rw [ShaderType.resourceSpelling] at h
    split at h
    · cases h
    · cases h
    · next ending f hending hformat =>
      cases h
      cases texel with
      | none => cases hformat
      | some texel => simp [ResourceClass.of?, mem_tokensAround texel.base "image" hending]
  | texels access texel =>
    cases access with
    | readOnly =>
      cases h
      simp [ResourceClass.of?]
    | readWrite =>
      rw [ShaderType.resourceSpelling] at h
      split at h <;> cases h
      simp [ResourceClass.of?]
  | subpassInput texel =>
    obtain ⟨base, size, components⟩ := texel
    cases base <;> cases h <;> simp [ResourceClass.of?, texelLetters, ScalarKind.texelLetter]

theorem underscore_notMem_token (hbuffer : t.isBuffer = false) (h : t.resourceSpelling = .ok s) :
    '_' ∉ s.token.toList := by
  have hall : ∀ p ∈ resourceTokens, '_' ∉ p.1.toList := by decide +kernel
  exact hall _ (mem_resourceTokens hbuffer h)

/-- No two classes share a token, and no class shares one with the resources without a class. -/
theorem class_eq_of_token (hbuffer : t.isBuffer = false) (hbuffer' : t'.isBuffer = false)
    (h : t.resourceSpelling = .ok s) (h' : t'.resourceSpelling = .ok s')
    (htoken : s.token = s'.token) : ResourceClass.of? t = ResourceClass.of? t' := by
  have hnodup : (resourceTokens.map Prod.fst).Nodup := by decide +kernel
  have hpair := List.inj_on_of_nodup_map hnodup (mem_resourceTokens hbuffer h)
    (mem_resourceTokens hbuffer' h') htoken
  exact congrArg Prod.snd hpair

/-! ## Names -/

/-- The part of a table name between its first underscore and its ending. -/
theorem table_toList (s : ResourceSpelling) :
    s.table.toList = '_' :: (s.token.toList ++
      (s.qualifier.elim [] fun q => '_' :: q.text.toList)) ++ "_TABLE_".toList := by
  rw [ResourceSpelling.table]
  cases s.qualifier with
  | none => simp [tableName]
  | some q => simp [tableName]

/-- With a token without underscores, the name of a table can be taken apart again. -/
theorem spelling_eq_of_table (htoken : '_' ∉ s.token.toList) (htoken' : '_' ∉ s'.token.toList)
    (h : s.table = s'.table) : s = s' := by
  have hmiddle : s.token.toList ++ (s.qualifier.elim [] fun q => '_' :: q.text.toList) =
      s'.token.toList ++ (s'.qualifier.elim [] fun q => '_' :: q.text.toList) := by
    have hname := congrArg String.toList h
    rw [table_toList, table_toList] at hname
    exact List.cons_inj_right '_' |>.mp (List.append_cancel_right hname)
  obtain ⟨token, qualifier⟩ := s
  obtain ⟨token', qualifier'⟩ := s'
  simp only at htoken htoken' hmiddle
  cases qualifier with
  | none =>
    cases qualifier' with
    | none =>
      simp only [Option.elim_none, List.append_nil, String.toList_inj] at hmiddle
      rw [hmiddle]
    | some q' =>
      -- only a token with a qualifier is followed by an underscore
      simp only [Option.elim_none, Option.elim_some, List.append_nil] at hmiddle
      simp [hmiddle] at htoken
  | some q =>
    cases qualifier' with
    | none =>
      simp only [Option.elim_none, Option.elim_some, List.append_nil] at hmiddle
      simp [← hmiddle] at htoken'
    | some q' =>
      rw [Option.elim_some, Option.elim_some,
        List.append_cons_inj_of_notMem htoken q.underscore_notMem_text] at hmiddle
      obtain ⟨htokens, -, htexts⟩ := hmiddle
      rw [String.toList_inj.mp htokens, Qualifier.text_injective (String.toList_inj.mp htexts)]

/-- The name of a table determines the spelling of its elements and their class. -/
theorem table_injective (hbuffer : t.isBuffer = false) (hbuffer' : t'.isBuffer = false)
    (h : t.resourceSpelling = .ok s) (h' : t'.resourceSpelling = .ok s')
    (htable : s.table = s'.table) : s = s' ∧ ResourceClass.of? t = ResourceClass.of? t' := by
  have hspelling : s = s' := spelling_eq_of_table (underscore_notMem_token hbuffer h)
    (underscore_notMem_token hbuffer' h') htable
  exact ⟨hspelling, class_eq_of_token hbuffer hbuffer' h h' (congrArg _ hspelling)⟩

/-! ## Bindings that need tables -/

/-- A binding needs a table exactly if its type is no buffer, and has a spelling and a class. -/
theorem bindingForm_eq_table_iff {sizes : TableSizes} {id : UInt32} {v : ResourceVariable}
    {table : ResourceTable} :
    bindingForm sizes id v = .ok (.table table) ↔
      v.type.isBuffer = false ∧ v.type.resourceSpelling = .ok table.spelling ∧
        ∃ c, ResourceClass.of? v.type = some c ∧ table.slot = c.slot sizes := by
  constructor
  · intro h
    obtain ⟨hbuffer, hspelling⟩ := spelling_of_table h
    refine ⟨hbuffer, hspelling, ?_⟩
    rw [bindingForm, hspelling] at h
    cases hclass : ResourceClass.of? v.type with
    | none =>
      rw [hclass] at h
      cases h
    | some c =>
      simp only [hclass] at h
      split at h
      · split at h <;> cases h
      · have htable := BindingForm.table.inj (Except.ok.inj h)
        exact ⟨c, rfl, by rw [← htable]⟩
  · rintro ⟨hbuffer, hspelling, c, hclass, hslot⟩
    obtain ⟨slot, spelling⟩ := table
    subst hslot
    simp only [bindingForm, hspelling, hclass]
    split
    · next htype =>
      rw [htype] at hbuffer
      cases hbuffer
    · rfl

/-- Whatever has the spelling of a table by name needs that table: type, class and slot agree. -/
theorem bindingForm_of_same_table {sizes : TableSizes} {id : UInt32} {v w : ResourceVariable}
    {table : ResourceTable} (h : bindingForm sizes id v = .ok (.table table))
    (hbuffer : w.type.isBuffer = false) (hspelling : w.type.resourceSpelling = .ok s)
    (hname : s.table = table.name) (id' : UInt32) :
    bindingForm sizes id' w = .ok (.table table) ∧
      ResourceClass.of? w.type = ResourceClass.of? v.type := by
  obtain ⟨hbuffer', hspelling', c, hclass, hslot⟩ := bindingForm_eq_table_iff.mp h
  obtain ⟨rfl, hsame⟩ := table_injective hbuffer hbuffer' hspelling hspelling' hname
  exact ⟨bindingForm_eq_table_iff.mpr ⟨hbuffer, hspelling, c, hsame.trans hclass, hslot⟩, hsame⟩

end GlslEmit
