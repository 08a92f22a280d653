/-
# Tokens and the texels behind them

A shader reads the texels of a resource as unsigned integers, as integers or as floats, and the
letter in front of its token says which.  The two kinds of texel buffer have one token each and no
letter; a read-write texel buffer still tells its texel by its format, a read-only one not at all.

* `ShaderType.imageWord?`, `ShaderType.imageEnding?` and `ShaderType.texelMark` are the three parts
  of a token;
* `spelling_of_texel`: the token is put together from them, and a qualifier is the format of the
  texel;
* `Emitter.texels_of_tokens`: resources that share a table have the same texel, up to read-only
  texel buffers;
* `Emitter.token_not_always_marked`: the texel buffers are exceptions to both.
-/
import GlslEmit.Proofs.Emitter.DescriptorType

namespace GlslEmit

/-! ## Parts of a token -/

namespace ShaderType

/-- The word in the middle of the token of a kind that carries texels. -/
def imageWord? : ShaderType → Option String
  | texture _ _ => some "texture"
  | image _ _ => some "image"
  | texels .readOnly _ => some "textureBuffer"
  | texels .readWrite _ => some "imageBuffer"
  | subpassInput _ => some "subpassInput"
  | _ => none

/-- The ending of the token: only sampled and stored images have a dimensionality to tell. -/
def imageEnding? : ShaderType → Option String
  | texture dims _ => dims.tokenEnding?
  | image dims _ => dims.tokenEnding?
  | texels _ _ => some ""
  | subpassInput _ => some ""
  | _ => none

/-- The letter in front of the token for a texel; texel buffers have none. -/
def texelMark (t : ShaderType) (texel : Texel) : String :=
  match t with
  | texels _ _ => ""
  | _ => texel.base.texelLetter

/-- Whether resources of a kind have the format of their texel for a qualifier. -/
def isFormatted : ShaderType → Bool
  | image _ _ => true
  | texels .readWrite _ => true
  | _ => false

end ShaderType

variable {t t' : ShaderType} {s s' : ResourceSpelling} {x x' : Texel}

theorem formatOf_some_eq_ok {f : TexelFormat} (h : formatOf (some x) = .ok f) :
    x.format? = some f := by
  rw [formatOf, Option.bind_some] at h
  cases hformat : x.format? with
  | none =>
    rw [hformat] at h
    cases h
  | some f' =>
    rw [hformat] at h
    cases h
    rfl

/-- The spelling of a resource with a known texel: the token is put together from its parts, and the
qualifier is the format of the texel, where there is one. -/
theorem spelling_of_texel (htexel : t.texel? = some x) (h : t.resourceSpelling = .ok s) :
    (∃ word ending, t.imageWord? = some word ∧ t.imageEnding? = some ending ∧
      s.token = t.texelMark x ++ word ++ ending) ∧
    if t.isFormatted then ∃ f, s.qualifier = some (.format f) ∧ x.format? = some f
      else s.qualifier = none := by
  cases t with
  | texture dims texel =>
    cases htexel
    rw [ShaderType.resourceSpelling] at h
    split at h
    · cases h
    · next ending hending =>
      cases h
      exact ⟨⟨_, ending, rfl, hending, rfl⟩, rfl⟩
  | image dims texel =>
    cases htexel
    rw [ShaderType.resourceSpelling] at h
    split at h
    · cases h
    · cases h
    · next ending f hending hformat =>
      cases h
      exact ⟨⟨_, ending, rfl, hending, rfl⟩, f, rfl, formatOf_some_eq_ok hformat⟩
  | texels access texel =>
    cases htexel
    cases access with
    | readOnly =>
      cases h
      have htoken : "textureBuffer" = "" ++ "textureBuffer" ++ "" := by decide
      exact ⟨⟨_, _, rfl, rfl, htoken⟩, rfl⟩
    | readWrite =>
      rw [ShaderType.resourceSpelling] at h
      split at h
      · cases h
      · next f hformat =>
        cases h
        have htoken : "imageBuffer" = "" ++ "imageBuffer" ++ "" := by decide
        exact ⟨⟨_, _, rfl, rfl, htoken⟩, f, rfl, formatOf_some_eq_ok hformat⟩
  | subpassInput texel =>
    cases htexel
    obtain ⟨base, size, components⟩ := x
    cases base <;> cases h <;> exact ⟨⟨_, _, rfl, rfl, String.append_empty.symm⟩, rfl⟩
  | _ => cases htexel

/-- The qualifier of a resource with a known texel is the format of that texel. -/
theorem format_of_qualifier (htexel : t.texel? = some x) (h : t.resourceSpelling = .ok s)
    {q : Qualifier} (hq : s.qualifier = some q) : ∃ f, q = .format f ∧ x.format? = some f := by
  have hspelling := (spelling_of_texel htexel h).2
  rw [hq] at hspelling
  split at hspelling
  · obtain ⟨f, hf, hx⟩ := hspelling
    exact ⟨f, Option.some.inj hf, hx⟩
  · cases hspelling

/-- The text of a format is that of one texel alone. -/
theorem format_text_eq_iff {f : TexelFormat} (h : x.format? = some f) {y : Texel} :
    y.format?.map TexelFormat.text = some f.text ↔ y = x := by
  rw [Option.map_eq_some_iff]
  constructor
  · rintro ⟨f', hy, htext⟩
    have hsame : Qualifier.format f' = .format f := Qualifier.text_injective htext
    obtain rfl := Qualifier.format.inj hsame
    rw [Texel.format?_eq_some_iff] at h hy
    rw [h, hy]
  · rintro rfl
    exact ⟨f, h, rfl⟩

/-! ## Resources that share a table -/

/-- Among the resources that can lie in a table, only read-only texel buffers have a texel and no
qualifier. -/
theorem eq_openTexels_of_unqualified {c : ResourceClass} (hclass : ResourceClass.of? t = some c)
    (htexel : t.texel? = some x) (h : t.resourceSpelling = .ok s) (hq : s.qualifier = none) :
    t = .texels .readOnly (some x) := by
  have hspelling := (spelling_of_texel htexel h).2
  cases t with
  | texels access texel =>
    cases htexel
    cases access with
    | readOnly => rfl
    | readWrite =>
      obtain ⟨f, hf, -⟩ := hspelling
      cases hq.symm.trans hf
  | image dims texel =>
    obtain ⟨f, hf, -⟩ := hspelling
    cases hq.symm.trans hf
  | texture dims texel => cases hclass
  | subpassInput texel => cases hclass
  | _ => cases htexel

/-- Of two resources with one table, both have the same texel or both are read-only texel
buffers. -/
theorem texel_eq_of_table {c c' : ResourceClass} (hclass : ResourceClass.of? t = some c)
    (hclass' : ResourceClass.of? t' = some c') (hbuffer : t.isBuffer = false)
    (hbuffer' : t'.isBuffer = false) (h : t.resourceSpelling = .ok s)
    (h' : t'.resourceSpelling = .ok s') (htable : s.table = s'.table)
    (htexel : t.texel? = some x) (htexel' : t'.texel? = some x') :
    x = x' ∨ t = .texels .readOnly (some x) ∧ t' = .texels .readOnly (some x') := by
  obtain ⟨rfl, -⟩ := table_injective hbuffer hbuffer' h h' htable
  cases hq : s.qualifier with
  | none =>
    exact Or.inr ⟨eq_openTexels_of_unqualified hclass htexel h hq,
      eq_openTexels_of_unqualified hclass' htexel' h' hq⟩
  | some q =>
    obtain ⟨f, rfl, hx⟩ := format_of_qualifier htexel h hq
    obtain ⟨f', hf, hx'⟩ := format_of_qualifier htexel' h' hq
    cases hf
    rw [Texel.format?_eq_some_iff] at hx hx'
    exact Or.inl (hx.trans hx'.symm)

namespace Emitter

variable {sizes : TableSizes} {commands : List Command} {v : ResourceVariable}

/-- The type of an accepted binding has a class. -/
theorem class_of_accepted
    (h : .declareBinding v ∈ Action.accepted step commands (new sizes)) :
    ∃ c, ResourceClass.of? v.type = some c := by
  obtain ⟨before, after, -, hok, -⟩ := Action.exists_last_accepted h
  obtain ⟨d, hd, -⟩ : ∃ d, Command.declarationAt? (run before (new sizes)) (.declareBinding v) =
      some d ∧ d ∈ (step (.declareBinding v) (run before (new sizes))).state.declarations :=
    exists_declaration rfl hok
  rcases place_of_declarationAt rfl hd with ⟨hc, -⟩ | ⟨-, c, hclass, -⟩
  · cases hc
  · exact ⟨c, hclass⟩

/-- **Tokens and texels.**  The token of a resource with a known texel is the word of its kind, with
the letter for the scalar kind of the texel in front and the ending for the dimensionality behind;
the two kinds of texel buffer have no letter.  A qualifier is the format of the texel, and of no
other texel.  Of two accepted bindings of one run that need the same table, both have the same
texel or both are read-only texel buffers. -/
theorem texels_of_tokens :
    (∀ (t : ShaderType) (x : Texel) (s : ResourceSpelling), t.texel? = some x →
      t.resourceSpelling = .ok s →
        (∃ word ending, t.imageWord? = some word ∧ t.imageEnding? = some ending ∧
          s.token = t.texelMark x ++ word ++ ending) ∧
        ∀ q, s.qualifier = some q →
          ∀ y : Texel, y.format?.map TexelFormat.text = some q.text ↔ y = x) ∧
    ∀ (sizes : TableSizes) (commands : List Command) (v w : ResourceVariable) (name : String)
      (x y : Texel), .declareBinding v ∈ Action.accepted step commands (new sizes) →
      .declareBinding w ∈ Action.accepted step commands (new sizes) →
      Command.table? (.declareBinding v) = some name →
      Command.table? (.declareBinding w) = some name →
      v.type.texel? = some x → w.type.texel? = some y →
        x = y ∨ v.type = .texels .readOnly (some x) ∧ w.type = .texels .readOnly (some y) := by
  refine ⟨fun t x s htexel h => ⟨(spelling_of_texel htexel h).1, fun q hq y => ?_⟩,
    fun sizes commands v w name x y hv hw hneeds hneeds' htexel htexel' => ?_⟩
  · obtain ⟨f, rfl, hx⟩ := format_of_qualifier htexel h hq
    exact format_text_eq_iff hx
  · obtain ⟨c, hclass⟩ := class_of_accepted hv
    obtain ⟨c', hclass'⟩ := class_of_accepted hw
    obtain ⟨hbuffer, s, h, hname⟩ := table?_eq_some_iff.mp hneeds
    obtain ⟨hbuffer', s', h', hname'⟩ := table?_eq_some_iff.mp hneeds'
    exact texel_eq_of_table hclass hclass' hbuffer hbuffer' h h' (hname.trans hname'.symm)
      htexel htexel'

/-- A cube of integers, and two storage images that share a table. -/
theorem texels_of_tokens_images :
    let ids : Texel := ⟨.signed, 4, 2⟩
    let front : ResourceVariable := ⟨"front", .image .d2 (some ids)⟩
    let back : ResourceVariable := ⟨"back", .image .d2 (some ids)⟩
    let commands : List Command := [.declareBinding front, .declareBinding back]
    (∃ word ending, (ShaderType.texture .cube ids).imageWord? = some word ∧
      (ShaderType.texture .cube ids).imageEnding? = some ending ∧
        "itextureCube" = "i" ++ word ++ ending) ∧
      (∀ y : Texel, y.format?.map TexelFormat.text = some "rg32i" ↔ y = ids) ∧
      (ids = ids ∨ front.type = .texels .readOnly (some ids) ∧
        back.type = .texels .readOnly (some ids)) ∧
      Action.accepted step commands (new .standard) = commands := by
  intro ids front back commands
  have hcalls : Action.accepted step commands (new .standard) = commands := by
    unfold commands front back ids
    rfl
  obtain ⟨htokens, hshared⟩ := texels_of_tokens
  refine ⟨(htokens (.texture .cube ids) ids ⟨"itextureCube", none⟩ rfl rfl).1,
    (htokens front.type ids ⟨"iimage2D", some (.format ⟨.rg, .int32⟩)⟩ rfl rfl).2 _ rfl,
    hshared .standard commands front back "_iimage2D_rg32i_TABLE_" ids ids ?_ ?_ rfl rfl rfl rfl,
    hcalls⟩
  · simp [hcalls, commands]
  · simp [hcalls, commands]

/-- The token of a texel buffer of unsigned integers has no letter, and two read-only texel buffers
share a table although their texels are of different scalar kinds. -/
theorem token_not_always_marked :
    (¬ ∀ (t : ShaderType) (x : Texel) (s : ResourceSpelling), t.texel? = some x →
      t.resourceSpelling = .ok s → ∃ word ending, t.imageWord? = some word ∧
        t.imageEnding? = some ending ∧ s.token = x.base.texelLetter ++ word ++ ending) ∧
    ¬ ∀ (sizes : TableSizes) (commands : List Command) (v w : ResourceVariable) (name : String)
      (x y : Texel), .declareBinding v ∈ Action.accepted step commands (new sizes) →
      .declareBinding w ∈ Action.accepted step commands (new sizes) →
      Command.table? (.declareBinding v) = some name →
      Command.table? (.declareBinding w) = some name →
      v.type.texel? = some x → w.type.texel? = some y → x.base = y.base := by
  constructor
  · intro h
    obtain ⟨word, ending, hword, hending, htoken⟩ :=
      h (.texels .readWrite (some ⟨.unsigned, 4, 1⟩)) ⟨.unsigned, 4, 1⟩
        ⟨"imageBuffer", some (.format ⟨.r, .uint32⟩)⟩ rfl rfl
    cases hword
    cases hending
    revert htoken
    decide
  · intro h
    let ids : ResourceVariable := ⟨"ids", .texels .readOnly (some ⟨.unsigned, 4, 4⟩)⟩
    let weights : ResourceVariable := ⟨"weights", .texels .readOnly (some ⟨.float, 4, 4⟩)⟩
    have hcalls : Action.accepted step [.declareBinding ids, .declareBinding weights]
        (new .standard) = [.declareBinding ids, .declareBinding weights] := by
      unfold ids weights
      rfl
    have hbase := h .standard [.declareBinding ids, .declareBinding weights] ids weights
      "_textureBuffer_TABLE_" ⟨.unsigned, 4, 4⟩ ⟨.float, 4, 4⟩ (by simp [hcalls])
      (by simp [hcalls]) rfl rfl rfl rfl
    cases hbase

end Emitter

end GlslEmit
