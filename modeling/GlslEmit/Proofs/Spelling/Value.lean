/-
# Words of value types

A word tells which value type it stands for.  The words of numeric shapes form a short list without
repetitions, and `void` is not in it.  The words of structs are set apart from all of these by their
underscore, whatever a struct is called.

* `NumericType.token?_injective`: different shapes have different words;
* `NumericType.isMatrix_iff_of_token` and `NumericType.token_of_isMatrix`: the words of matrices;
* `ShaderType.valueToken?_eq_void_iff`, `ShaderType.valueToken?_eq_token_iff` and
  `ShaderType.valueToken?_eq_structToken_iff`: what each word stands for;
* `ShaderType.value_words_unambiguous` puts these together.
-/
import Mathlib.Data.List.Nodup
import GlslEmit.Spelling.Value

namespace GlslEmit

/-! ## Numeric shapes -/

namespace NumericType

variable {n m : NumericType} {token : String}

/-- Different shapes have different words. -/
theorem token?_injective (hn : n.token? = some token) (hm : m.token? = some token) : n = m := by
  have hnodup : (spelled.map token?).Nodup := by decide +kernel
  exact List.inj_on_of_nodup_map hnodup (mem_spelled hn) (mem_spelled hm) (hn.trans hm.symm)

/-- No numeric type is called `void`. -/
theorem token?_ne_void : n.token? ≠ some "void" := by
  have hall : ∀ n ∈ spelled, n.token? ≠ some "void" := by decide +kernel
  intro h
  exact hall n (mem_spelled h) h

/-- The matrices, and they alone, have words that begin with `mat`. -/
theorem isMatrix_iff_of_token (h : n.token? = some token) :
    n.isMatrix = true ↔ "mat".toList <+: token.toList := by
  have hall : ∀ n ∈ spelled, ∀ token ∈ n.token?,
      (n.isMatrix = true ↔ "mat".toList <+: token.toList) := by
    decide +kernel
  exact hall n (mem_spelled h) token h

/-- The word of a matrix names its columns before its rows. -/
theorem token_of_isMatrix (h : n.token? = some token) (hmatrix : n.isMatrix = true) :
    token = "mat" ++ toString n.cols ++ "x" ++ toString n.rows := by
  have hall : ∀ n ∈ spelled, n.isMatrix = true →
      n.token? = some ("mat" ++ toString n.cols ++ "x" ++ toString n.rows) := by
    decide +kernel
  exact Option.some.inj (h.symm.trans (hall n (mem_spelled h) hmatrix))

end NumericType

/-! ## Value types -/

/-- No struct is called `void`, since the word for a struct has an underscore. -/
theorem structToken_ne_void (name : String) : structToken name ≠ "void" := by
  intro h
  have hmem : '_' ∈ (structToken name).toList := by simp [structToken]
  rw [h] at hmem
  exact absurd hmem (by decide)

namespace ShaderType

variable {t : ShaderType} {shape : NumericType} {name token : String}

/-- Only `void` is called `void`. -/
theorem valueToken?_eq_void_iff : t.valueToken? = some "void" ↔ t = void := by
  constructor
  · intro h
    cases t with
    | void => rfl
    | numeric shape => exact absurd h NumericType.token?_ne_void
    | struct s => exact absurd (Option.some.inj h) (structToken_ne_void s.name)
    | _ => cases h
  · rintro rfl
    rfl

/-- The word for a struct stands for the structs of that name alone. -/
theorem valueToken?_eq_structToken_iff :
    t.valueToken? = some (structToken name) ↔ ∃ s : StructType, t = .struct s ∧ s.name = name := by
  by_cases hvoid : t = void
  · rw [hvoid]
    refine iff_of_false (fun h => structToken_ne_void name (Option.some.inj h).symm) ?_
    rintro ⟨s, hs, -⟩
    cases hs
  · rw [← memberToken?_eq_valueToken? hvoid, memberToken?_eq_structToken_iff]

/-- The word for a numeric shape stands for that shape alone. -/
theorem valueToken?_eq_token_iff (hshape : shape.token? = some token) :
    t.valueToken? = some token ↔ t = .numeric shape := by
  constructor
  · intro h
    cases t with
    | void =>
      rw [← h] at hshape
      exact absurd hshape NumericType.token?_ne_void
    | numeric other => rw [NumericType.token?_injective h hshape]
    | struct s =>
      have hmember : (numeric shape).memberToken? = some (structToken s.name) := hshape.trans h.symm
      obtain ⟨other, hother, -⟩ := memberToken?_eq_structToken_iff.mp hmember
      cases hother
    | _ => cases h
  · rintro rfl
    exact hshape

/-- **Words of value types are unambiguous.**  Two types have the same word exactly if both are
`void`, both are the same numeric shape with a word, or both are structs of the same name.  A shape
has a word exactly if its components have four bytes and it is a scalar, a vector of up to four
components, or a matrix of floats with two to four columns and rows.  The words that begin with
`mat` are those of the matrices, and they name the columns before the rows. -/
theorem value_words_unambiguous :
    (∀ a b : ShaderType,
      (∃ token, a.valueToken? = some token ∧ b.valueToken? = some token) ↔
        (a = void ∧ b = void) ∨
        (∃ shape : NumericType, shape.token?.isSome = true ∧ a = numeric shape ∧
          b = numeric shape) ∨
        ∃ s s' : StructType, a = struct s ∧ b = struct s' ∧ s.name = s'.name) ∧
    (∀ (base : ScalarKind) (size rows cols : UInt8),
      (NumericType.mk base size rows cols).token?.isSome = true ↔
        size = 4 ∧ ((cols = 1 ∧ 1 ≤ rows ∧ rows ≤ 4) ∨
          (base = .float ∧ 2 ≤ cols ∧ cols ≤ 4 ∧ 2 ≤ rows ∧ rows ≤ 4))) ∧
    ∀ (shape : NumericType) (token : String), shape.token? = some token →
      (shape.isMatrix = true ↔ "mat".toList <+: token.toList) ∧
      (shape.isMatrix = true →
        token = "mat" ++ toString shape.cols ++ "x" ++ toString shape.rows) := by
  refine ⟨fun a b => ⟨?_, ?_⟩, fun base size rows cols => NumericType.isSome_token?_iff,
    fun shape token h => ⟨NumericType.isMatrix_iff_of_token h, NumericType.token_of_isMatrix h⟩⟩
  · rintro ⟨token, ha, hb⟩
    cases a with
    | void =>
      cases ha
      exact Or.inl ⟨rfl, valueToken?_eq_void_iff.mp hb⟩
    | numeric shape =>
      have hsome : shape.token?.isSome = true := Option.isSome_of_eq_some ha
      exact Or.inr (Or.inl ⟨shape, hsome, rfl, (valueToken?_eq_token_iff ha).mp hb⟩)
    | struct s =>
      cases ha
      obtain ⟨s', rfl, hname⟩ := valueToken?_eq_structToken_iff.mp hb
      exact Or.inr (Or.inr ⟨s, s', rfl, rfl, hname.symm⟩)
    | _ => cases ha
  · rintro (⟨rfl, rfl⟩ | ⟨shape, hsome, rfl, rfl⟩ | ⟨s, s', rfl, rfl, hname⟩)
    · exact ⟨"void", rfl, rfl⟩
    · obtain ⟨token, htoken⟩ := Option.isSome_iff_exists.mp hsome
      exact ⟨token, htoken, htoken⟩
    · exact ⟨structToken s.name, rfl, valueToken?_eq_structToken_iff.mpr ⟨s', rfl, hname.symm⟩⟩

/-- Two columns of three rows: the word says so in this order, begins as matrices do, and does not
stand for three columns of two rows. -/
theorem value_words_unambiguous_mat2x3 :
    let shape := NumericType.matrix 2 3
    let turned := NumericType.matrix 3 2
    shape.token? = some "mat2x3" ∧ shape.isMatrix = true ∧
      "mat2x3" = "mat" ++ toString shape.cols ++ "x" ++ toString shape.rows ∧
      "mat".toList <+: "mat2x3".toList ∧ (numeric turned).valueToken? ≠ some "mat2x3" := by
  intro shape turned
  have htoken : shape.token? = some "mat2x3" := by decide
  have hmatrix : shape.isMatrix = true := by decide
  obtain ⟨hsame, -, hmatrices⟩ := value_words_unambiguous
  obtain ⟨hword, hcolumns⟩ := hmatrices shape "mat2x3" htoken
  refine ⟨htoken, hmatrix, hcolumns hmatrix, hword.mp hmatrix, fun hturned => ?_⟩
  rcases (hsame (numeric shape) (numeric turned)).mp ⟨"mat2x3", htoken, hturned⟩ with
    ⟨hvoid, -⟩ | ⟨other, -, hother, hsecond⟩ | ⟨s, -, hstruct, -⟩
  · cases hvoid
  · exact absurd (numeric.inj (hother.trans hsecond.symm)) (by decide)
  · cases hstruct

end ShaderType

end GlslEmit
