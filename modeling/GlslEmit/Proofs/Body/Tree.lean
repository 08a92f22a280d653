/-
# The block tree of a body

The statements of a body, in order, are the walk through a tree: a leaf stands on a line of its own,
and an inner node is an opener with everything up to its closing brace.  This file is about trees
and lists of statements alone; no emitter occurs in it.

* `BlockTree.walk` and `BlockTree.print` are the statements and the text of a tree;
* `BlockTree.walk_injective`: a list of statements is the walk of at most one tree;
* `BlockTree.print_eq`: the lines that the statements of a walk write are the print of the tree.
-/
import GlslEmit.Proofs.Emitter.Activation
import GlslEmit.Text.Placeholder

namespace GlslEmit

/-- Whether a statement is a leaf of a tree: it is no brace, and it has what its line needs. -/
def Statement.IsLeaf : Statement → Prop
  | declare v => v.type.valueToken?.isSome = true
  | assign _ _ _ => True
  | store template _ => HoldsPlaceholder template.toList
  | unpack index => index < maxSubIndices
  | openBlock _ => False
  | closeBlock => False

/-- A list of trees: nothing, a leaf with the trees behind it, or a block with the trees inside it
and the trees behind it. -/
inductive BlockTree where
  | nil
  | leaf (statement : Statement) (isLeaf : statement.IsLeaf) (rest : BlockTree)
  | block (o : Opener) (inner rest : BlockTree)

namespace BlockTree

/-- The statements of a tree in pre-order, each block with its closing brace. -/
def walk : BlockTree → List Statement
  | nil => []
  | leaf statement _ rest => statement :: rest.walk
  | block o inner rest => .openBlock o :: (inner.walk ++ .closeBlock :: rest.walk)

/-- The sub-indices that a tree reads. -/
def indices (f : BlockTree) : List UInt32 := f.walk.filterMap Statement.unpackedIndex?

/-- A text on a line of its own, indented by as many tabs as the depth says. -/
def printLine (depth : Nat) (text : String) : String := indentation depth ++ text ++ "\n"

/-- The line of a leaf. -/
def printLeaf (depth : Nat) (statement : Statement) : String :=
  match statement.line with
  | .ok line => printLine depth line.text
  | .error _ => ""

/-- The text of a tree at a depth, behind the reading of some sub-indices: these are not read again,
and a closing brace stands below its opener. -/
def print (seen : List UInt32) (depth : Nat) : BlockTree → String
  | nil => ""
  | leaf statement _ rest =>
    (if statement.unpackedIndex?.any (· ∈ seen) then "" else printLeaf depth statement) ++
      rest.print (seen ++ statement.unpackedIndex?.toList) depth
  | block o inner rest =>
    printLine depth o.text ++ inner.print seen (depth + 1) ++ printLine depth "\x7d" ++
      rest.print (seen ++ inner.indices) depth

/-- Two lists of trees, one behind the other. -/
def append : BlockTree → BlockTree → BlockTree
  | nil, g => g
  | leaf statement isLeaf rest, g => leaf statement isLeaf (rest.append g)
  | block o inner rest, g => block o inner (rest.append g)

theorem walk_append (f g : BlockTree) : (f.append g).walk = f.walk ++ g.walk := by
  induction f with
  | nil => rfl
  | leaf statement isLeaf rest ih => rw [append, walk, walk, ih, List.cons_append]
  | block o inner rest _ ih =>
    rw [append, walk, walk, ih]
    simp

end BlockTree

/-! ## Leaves -/

namespace Statement

variable {statement : Statement}

theorem IsLeaf.opens (h : statement.IsLeaf) : statement.opens = false := by
  cases statement with
  | openBlock o => exact h.elim
  | _ => rfl

theorem IsLeaf.closes (h : statement.IsLeaf) : statement.closes = false := by
  cases statement with
  | closeBlock => exact h.elim
  | _ => rfl

/-- A leaf has a line. -/
theorem IsLeaf.line (h : statement.IsLeaf) : ∃ line, statement.line = .ok line := by
  cases statement with
  | declare v =>
    obtain ⟨token, htoken⟩ := Option.isSome_iff_exists.mp h
    exact ⟨.declaration token v.name v.arraySize, by rw [Statement.line, htoken]⟩
  | assign left operator right => exact ⟨_, rfl⟩
  | store template value =>
    have hfill := (fillFirst_isSome_iff value.toList template.toList).mpr h
    obtain ⟨text, htext⟩ := Option.isSome_iff_exists.mp hfill
    exact ⟨.store (String.ofList text), by rw [Statement.line, fillPlaceholder?, htext]; rfl⟩
  | unpack index => exact ⟨.unpack index, if_pos h⟩
  | openBlock o => exact h.elim
  | closeBlock => exact h.elim

/-- A plain statement that has a line is a leaf. -/
theorem isLeaf_of_plain {line : Line} (plain : statement.isPlain = true)
    (form : statement.line = .ok line) : statement.IsLeaf := by
  cases statement with
  | declare v =>
    rw [Statement.line] at form
    split at form
    · cases form
    · next htoken => exact Option.isSome_iff_exists.mpr ⟨_, htoken⟩
  | assign left operator right => trivial
  | store template value =>
    apply (fillFirst_isSome_iff value.toList template.toList).mp
    rw [Statement.line, fillPlaceholder?] at form
    split at form
    · cases form
    · next hfill =>
      obtain ⟨text, htext, -⟩ := Option.map_eq_some_iff.mp hfill
      exact Option.isSome_iff_exists.mpr ⟨text, htext⟩
  | unpack index => cases plain
  | openBlock o => cases plain
  | closeBlock => cases plain

end Statement

namespace BlockTree

/-! ## A walk has one tree -/

/-- Whether a list ends or goes on with a closing brace: there the trees of a block end. -/
def Stops (rest : List Statement) : Prop :=
  rest = [] ∨ ∃ behind, rest = .closeBlock :: behind

theorem Stops.not_leaf {statement : Statement} {rest : List Statement} (h : statement.IsLeaf) :
    ¬ Stops (statement :: rest) := by
  rintro (hnil | ⟨behind, hclose⟩)
  · cases hnil
  · cases hclose
    exact h

theorem Stops.not_opener {o : Opener} {rest : List Statement} :
    ¬ Stops (.openBlock o :: rest) := by
  rintro (hnil | ⟨behind, hclose⟩)
  · cases hnil
  · cases hclose

/-- Up to the place where the trees end, the statements determine the trees. -/
theorem walk_append_injective {f f' : BlockTree} {rest rest' : List Statement}
    (hrest : Stops rest) (hrest' : Stops rest') (h : f.walk ++ rest = f'.walk ++ rest') :
    f = f' ∧ rest = rest' := by
  induction f generalizing f' rest rest' with
  | nil =>
    cases f' with
    | nil => exact ⟨rfl, h⟩
    | leaf statement isLeaf next =>
      have hleaf : rest = statement :: (next.walk ++ rest') := h
      exact absurd (hleaf ▸ hrest) (Stops.not_leaf isLeaf)
    | block o inner next =>
      have hopener : rest = .openBlock o :: ((inner.walk ++ .closeBlock :: next.walk) ++ rest') := h
      exact absurd (hopener ▸ hrest) Stops.not_opener
  | leaf statement isLeaf next ih =>
    cases f' with
    | nil =>
      have hleaf : statement :: (next.walk ++ rest) = rest' := h
      exact absurd (hleaf ▸ hrest') (Stops.not_leaf isLeaf)
    | leaf statement' isLeaf' next' =>
      obtain ⟨rfl, htail⟩ := List.cons.inj h
      obtain ⟨rfl, rfl⟩ := ih hrest hrest' htail
      exact ⟨rfl, rfl⟩
    | block o inner next' =>
      obtain ⟨rfl, -⟩ := List.cons.inj h
      exact isLeaf.elim
  | block o inner next ihinner ihnext =>
    cases f' with
    | nil =>
      have hopener : .openBlock o :: ((inner.walk ++ .closeBlock :: next.walk) ++ rest) = rest' := h
      exact absurd (hopener ▸ hrest') Stops.not_opener
    | leaf statement isLeaf next' =>
      obtain ⟨rfl, -⟩ := List.cons.inj h
      exact isLeaf.elim
    | block o' inner' next' =>
      obtain ⟨hopener, htail⟩ := List.cons.inj h
      cases hopener
      have hinner : inner.walk ++ .closeBlock :: (next.walk ++ rest) =
          inner'.walk ++ .closeBlock :: (next'.walk ++ rest') := by
        simpa using htail
      -- both blocks end at a closing brace, so the inner trees agree first
      obtain ⟨rfl, hclose⟩ := ihinner (Or.inr ⟨_, rfl⟩) (Or.inr ⟨_, rfl⟩) hinner
      obtain ⟨-, hbehind⟩ := List.cons.inj hclose
      obtain ⟨rfl, rfl⟩ := ihnext hrest hrest' hbehind
      exact ⟨rfl, rfl⟩

/-- A list of statements is the walk of at most one tree. -/
theorem walk_injective {f f' : BlockTree} (h : f.walk = f'.walk) : f = f' := by
  have hboth : f.walk ++ [] = f'.walk ++ [] := by rw [h]
  exact (walk_append_injective (Or.inl rfl) (Or.inl rfl) hboth).1

/-! ## The lines of a walk -/

theorem countP_opens_walk (f : BlockTree) :
    f.walk.countP Statement.opens = f.walk.countP Statement.closes := by
  induction f with
  | nil => rfl
  | leaf statement isLeaf rest ih =>
    rw [walk, List.countP_cons, List.countP_cons, isLeaf.opens, isLeaf.closes, ih]
  | block o inner rest ihinner ihrest =>
    rw [walk, List.countP_cons, List.countP_cons, List.countP_append, List.countP_append,
      List.countP_cons, List.countP_cons, ihinner, ihrest]
    simp only [Statement.opens, Statement.closes]
    simp only [if_true, Bool.false_eq_true, if_false]
    omega

/-- Behind a whole tree the depth is the one before it. -/
theorem depthAfter_walk (past : List Statement) (f : BlockTree) :
    Statement.depthAfter (past ++ f.walk) = Statement.depthAfter past := by
  have hbalanced := countP_opens_walk f
  rw [Statement.depthAfter, Statement.depthAfter, List.countP_append, List.countP_append]
  omega

/-- The text of some lines. -/
def linesText (lines : List IndentedLine) : String := joinTexts (lines.map IndentedLine.text)

theorem linesText_append (lines lines' : List IndentedLine) :
    linesText (lines ++ lines') = linesText lines ++ linesText lines' := by
  rw [linesText, List.map_append, joinTexts_append]
  rfl

theorem linesText_singleton (depth : Nat) (line : Line) :
    linesText [⟨depth, line⟩] = printLine depth line.text := by
  simp [linesText, joinTexts, IndentedLine.text, printLine]

/-- What a leaf writes: nothing if it reads a sub-index again, and its line otherwise. -/
theorem text_leaf (past : List Statement) {statement : Statement} (isLeaf : statement.IsLeaf) :
    linesText (statement.linesAfter past) =
      if statement.unpackedIndex?.any (· ∈ past.filterMap Statement.unpackedIndex?) then ""
      else printLeaf (Statement.depthAfter past) statement := by
  obtain ⟨line, hline⟩ := isLeaf.line
  rw [printLeaf, hline]
  -- only the reading of a sub-index asks what was written before
  cases statement with
  | unpack index =>
    have hsmall : index < maxSubIndices := isLeaf
    obtain rfl : .unpack index = line := Except.ok.inj ((if_pos hsmall).symm.trans hline)
    rw [Statement.linesAfter_unpack hsmall]
    by_cases hseen : index ∈ past.filterMap Statement.unpackedIndex?
    · rw [if_pos hseen, if_pos (by simpa [Statement.unpackedIndex?] using hseen)]
      rfl
    · rw [if_neg hseen, if_neg (by simpa [Statement.unpackedIndex?] using hseen)]
      exact linesText_singleton _ _
  | openBlock o => exact isLeaf.elim
  | closeBlock => exact isLeaf.elim
  | _ =>
    rw [Statement.linesAfter_plain rfl hline]
    exact linesText_singleton _ _

/-- The lines that the statements of a walk write are the print of the tree. -/
theorem print_eq (f : BlockTree) (past : List Statement)
    (hpositive : 0 < Statement.depthAfter past) :
    linesText (contributionsAfter Statement.linesAfter past f.walk) =
      f.print (past.filterMap Statement.unpackedIndex?) (Statement.depthAfter past) := by
  induction f generalizing past with
  | nil => rfl
  | leaf statement isLeaf rest ih =>
    have hdepth : Statement.depthAfter (past ++ [statement]) = Statement.depthAfter past :=
      Statement.depthAfter_plain isLeaf.opens isLeaf.closes
    have hseen : (past ++ [statement]).filterMap Statement.unpackedIndex? =
        past.filterMap Statement.unpackedIndex? ++ statement.unpackedIndex?.toList := by
      rw [List.filterMap_append]
      cases statement <;> rfl
    rw [walk, contributionsAfter, linesText_append, text_leaf past isLeaf,
      ih _ (by rw [hdepth]; exact hpositive), hdepth, hseen, print]
  | block o inner rest ihinner ihrest =>
    -- one deeper inside the block, and back at the closing brace
    have hopen := Statement.depthAfter_openBlock o hpositive
    have hinner : Statement.depthAfter (past ++ [Statement.openBlock o] ++ inner.walk) =
        Statement.depthAfter past + 1 := by
      rw [depthAfter_walk, hopen]
    have hclosed : Statement.depthAfter
        (past ++ [Statement.openBlock o] ++ inner.walk ++ [Statement.closeBlock]) =
        Statement.depthAfter past := by
      rw [Statement.depthAfter_closeBlock, hinner]
      rfl
    have hseen' : (past ++ [Statement.openBlock o]).filterMap Statement.unpackedIndex? =
        past.filterMap Statement.unpackedIndex? := by
      simp [List.filterMap_append, Statement.unpackedIndex?]
    have hseen : (past ++ [Statement.openBlock o] ++ inner.walk ++ [Statement.closeBlock]).filterMap
        Statement.unpackedIndex? = past.filterMap Statement.unpackedIndex? ++ inner.indices := by
      rw [List.filterMap_append, List.filterMap_append, hseen', indices]
      simp [Statement.unpackedIndex?]
    rw [walk, contributionsAfter, linesText_append, contributionsAfter_append, linesText_append,
      contributionsAfter, linesText_append, Statement.linesAfter_openBlock,
      Statement.linesAfter_closeBlock, linesText_singleton, linesText_singleton,
      ihinner _ (by rw [hopen]; exact Nat.succ_pos _), ihrest _ (by rw [hclosed]; exact hpositive),
      hinner, hclosed, hopen, hseen, hseen', print]
    simp only [String.append_assoc]
    rfl

end BlockTree

end GlslEmit
