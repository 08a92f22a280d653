/-
# Tokens of value types

The GLSL words for types that a variable of a function can have. Only four-byte components have
a word, only floats form matrices, and a struct is called by its name with `_t` behind it.

* `NumericType.token?` spells scalars, vectors and matrices, columns before rows;
* `NumericType.isSome_token?_iff` says which shapes have a word, `NumericType.spelled` lists them;
* `ShaderType.valueToken?` spells what a function may declare, `ShaderType.memberToken?` what a
  struct may hold; the two differ at `void` alone;
* `ShaderType.memberToken?_eq_structToken_iff`: the word for a struct stands for nothing else.
-/
import GlslEmit.ShaderType.Basic

namespace GlslEmit

/-- The word for a scalar of four bytes. -/
def ScalarKind.scalarToken : ScalarKind → String
  | .boolean => "bool"
  | .signed => "int"
  | .unsigned => "uint"
  | .float => "float"

/-- The letter that marks a vector of a scalar kind; vectors of floats carry none. -/
def ScalarKind.vectorLetter : ScalarKind → String
  | .boolean => "b"
  | .signed => "i"
  | .unsigned => "u"
  | .float => ""

/-- The word for a numeric shape, if there is one. -/
def NumericType.token? (n : NumericType) : Option String :=
  if n.size ≠ 4 then none
  else if n.cols = 1 then
    if n.rows = 1 then some n.base.scalarToken
    else if 2 ≤ n.rows ∧ n.rows ≤ 4 then
      some (n.base.vectorLetter ++ "vec" ++ toString n.rows)
    else none
  else if n.base = .float ∧ 2 ≤ n.cols ∧ n.cols ≤ 4 ∧ 2 ≤ n.rows ∧ n.rows ≤ 4 then
    some ("mat" ++ toString n.cols ++ "x" ++ toString n.rows)
  else none

/-- The word for the struct of a given name. -/
def structToken (name : String) : String := name ++ "_t"

/-- The part of a declaration that makes an array: nothing for length 1. -/
def arraySuffix (arraySize : UInt32) : String :=
  if arraySize = 1 then "" else "[" ++ toString arraySize ++ "]"

namespace ShaderType

/-- The word for a type inside a function: `void`, a numeric shape or a struct. -/
def valueToken? : ShaderType → Option String
  | void => some "void"
  | numeric shape => shape.token?
  | struct s => some (structToken s.name)
  | _ => none

/-- The word for a type as a struct member: a numeric shape or a struct. -/
def memberToken? : ShaderType → Option String
  | numeric shape => shape.token?
  | struct s => some (structToken s.name)
  | _ => none

/-- The word for a numeric type. -/
def numericToken? (t : ShaderType) : Option String := t.numeric?.bind (·.token?)

/-- A struct may hold whatever a function may declare, except `void`. -/
theorem memberToken?_eq_valueToken? {t : ShaderType} (h : t ≠ void) :
    t.memberToken? = t.valueToken? := by
  cases t <;> simp_all [memberToken?, valueToken?]

end ShaderType

/-! ## Words for numeric shapes -/

namespace NumericType

variable {n : NumericType} {token : String} {count : UInt8}

theorem count_cases (h : 2 ≤ count ∧ count ≤ 4) :
    count = 2 ∨ count = 3 ∨ count = 4 := by
  have hlow := UInt8.le_iff_toNat_le.mp h.1
  have hhigh := UInt8.le_iff_toNat_le.mp h.2
  have htwo : (2 : UInt8).toNat = 2 := rfl
  have hthree : (3 : UInt8).toNat = 3 := rfl
  have hfour : (4 : UInt8).toNat = 4 := rfl
  simp only [← UInt8.toNat_inj]
  omega

theorem one_or_count_iff : count = 1 ∨ 2 ≤ count ∧ count ≤ 4 ↔ 1 ≤ count ∧ count ≤ 4 := by
  simp only [← UInt8.toNat_inj, UInt8.le_iff_toNat_le, UInt8.reduceToNat]
  omega

/-- A shape has a word exactly if its components have four bytes and it is a scalar, a vector of up
to four components, or a matrix of floats with two to four columns and rows. -/
theorem isSome_token?_iff : n.token?.isSome = true ↔
    n.size = 4 ∧ ((n.cols = 1 ∧ 1 ≤ n.rows ∧ n.rows ≤ 4) ∨
      (n.base = .float ∧ 2 ≤ n.cols ∧ n.cols ≤ 4 ∧ 2 ≤ n.rows ∧ n.rows ≤ 4)) := by
  rw [token?]
  by_cases hsize : n.size = 4
  · by_cases hcols : n.cols = 1
    · have hvector : ¬ (2 : UInt8) ≤ 1 := by decide
      by_cases hscalar : n.rows = 1
      · simp [hsize, hcols, hscalar]
      · simp [hsize, hcols, hscalar, ← one_or_count_iff, hvector]
    · simp [hsize, hcols]
  · simp [hsize]

/-- The shapes that have a word. -/
def spelled : List NumericType :=
  ([ScalarKind.boolean, .signed, .unsigned, .float].flatMap fun base =>
    [1, 2, 3, 4].map (vector base)) ++ [2, 3, 4].flatMap fun cols => [2, 3, 4].map (matrix cols)

theorem mem_spelled (h : n.token? = some token) : n ∈ spelled := by
  obtain ⟨base, size, rows, cols⟩ := n
  have hshape := isSome_token?_iff.mp (Option.isSome_of_eq_some h)
  simp only at hshape
  obtain ⟨rfl, ⟨rfl, hrows⟩ | ⟨rfl, hlow, hhigh, hrows⟩⟩ := hshape
  · have hbase : base ∈ [ScalarKind.boolean, .signed, .unsigned, .float] := by
      cases base <;> decide
    have hmem : rows ∈ [(1 : UInt8), 2, 3, 4] := by
      rcases one_or_count_iff.mpr hrows with hscalar | hvector
      · simp [hscalar]
      · simp [count_cases hvector]
    exact List.mem_append_left _ (List.mem_flatMap.mpr ⟨base, hbase, List.mem_map_of_mem hmem⟩)
  · have hmem {count : UInt8} (h : 2 ≤ count ∧ count ≤ 4) : count ∈ [(2 : UInt8), 3, 4] := by
      simpa using count_cases h
    exact List.mem_append_right _ (List.mem_flatMap.mpr
      ⟨cols, hmem ⟨hlow, hhigh⟩, List.mem_map_of_mem (hmem hrows)⟩)

/-- The words for numeric types contain no underscore. -/
theorem underscore_notMem_token (h : n.token? = some token) : '_' ∉ token.toList := by
  have hall : ∀ n ∈ spelled, ∀ token ∈ n.token?, '_' ∉ token.toList := by decide +kernel
  exact hall n (mem_spelled h) token h

end NumericType

/-! ## Words for structs -/

theorem structToken_injective {name name' : String} (h : structToken name = structToken name') :
    name = name' := by
  have hchars := congrArg String.toList h
  simp only [structToken, String.toList_append] at hchars
  exact String.toList_inj.mp (List.append_cancel_right hchars)

/-- The word for a struct stands for nothing else. -/
theorem ShaderType.memberToken?_eq_structToken_iff {t : ShaderType} {name : String} :
    t.memberToken? = some (structToken name) ↔ ∃ s : StructType, t = .struct s ∧ s.name = name := by
  constructor
  · intro h
    cases t with
    | numeric shape =>
      refine absurd ?_ (NumericType.underscore_notMem_token h)
      simp [structToken]
    | struct s => exact ⟨s, rfl, structToken_injective (Option.some.inj h)⟩
    | _ => cases h
  · rintro ⟨s, rfl, rfl⟩
    rfl

end GlslEmit
