/-
# Struct declarations

A struct is declared whole or not at all.  Every member needs a word for its type; the first member
without one is the reason why the struct is refused, however many members before it have theirs, and
nothing of these is written.

* `MemberWord` says which types a struct may hold, and `MemberLine` how a member is declared;
* `memberField_eq_error_iff`: why a member has no line;
* `Emitter.struct_declared_whole`: the two outcomes of a struct command.
-/
import Mathlib.Data.List.Forall2
import GlslEmit.Proofs.Emitter.Declaration

namespace GlslEmit

/-! ## Members and their lines -/

/-- The types that a struct may hold, each with its word: numeric shapes that have one, and
structs. -/
inductive MemberWord : ShaderType → String → Prop
  | numeric {shape : NumericType} {token : String} (h : shape.token? = some token) :
      MemberWord (.numeric shape) token
  | struct (s : StructType) : MemberWord (.struct s) (s.name ++ "_t")

/-- A type that a struct may hold. -/
def HasMemberWord (t : ShaderType) : Prop := ∃ token, MemberWord t token

/-- The line of a member: its word, its name and its length, which is left out if it is 1. -/
inductive MemberLine (m : StructMember) : String → Prop
  | single {token : String} (word : MemberWord m.type token) (h : m.arraySize = 1) :
      MemberLine m ("\t" ++ token ++ " " ++ m.name ++ ";\n")
  | array {token : String} (word : MemberWord m.type token) (h : m.arraySize ≠ 1) :
      MemberLine m ("\t" ++ token ++ " " ++ m.name ++ "[" ++ toString m.arraySize ++ "];\n")

theorem memberToken?_eq_some_iff {t : ShaderType} {token : String} :
    t.memberToken? = some token ↔ MemberWord t token := by
  constructor
  · intro h
    cases t with
    | numeric shape => exact .numeric h
    | struct s =>
      cases h
      exact .struct s
    | _ => cases h
  · intro h
    cases h with
    | numeric h => exact h
    | struct s => rfl

theorem memberToken?_eq_none_iff {t : ShaderType} :
    t.memberToken? = none ↔ ¬ HasMemberWord t := by
  rw [Option.eq_none_iff_forall_ne_some, HasMemberWord, not_exists]
  exact forall_congr' fun token => not_congr memberToken?_eq_some_iff

section Member

variable {owner : String} {m : StructMember}

/-- A member has a declared form exactly if its type has a word. -/
theorem exists_memberField_iff :
    (∃ field, memberField owner m = .ok field) ↔ HasMemberWord m.type := by
  rw [memberField]
  cases h : m.type.memberToken? with
  | none =>
    have hnone := memberToken?_eq_none_iff.mp h
    simp [hnone]
  | some token => simpa using ⟨token, memberToken?_eq_some_iff.mp h⟩

/-- Why a member has no declared form: its type has no word. -/
theorem memberField_eq_error_iff {e : EmitError} :
    memberField owner m = .error e ↔ ¬ HasMemberWord m.type ∧
      e = .unmappableType ("struct member '" ++ owner ++ "." ++ m.name ++ "'") m.type.describe := by
  rw [memberField]
  cases h : m.type.memberToken? with
  | none =>
    have hnone := memberToken?_eq_none_iff.mp h
    simp only [hnone, not_false_eq_true, true_and]
    rw [Except.error.injEq, eq_comm]
  | some token =>
    have hword : HasMemberWord m.type := ⟨token, memberToken?_eq_some_iff.mp h⟩
    simp [hword]

/-- A field with the word, the name and the length of a member is written as the member's line. -/
theorem memberLine_text {f : Field} (htoken : m.type.memberToken? = some f.token)
    (hname : f.name = m.name) (hsize : f.arraySize = m.arraySize) : MemberLine m f.text := by
  have hword := memberToken?_eq_some_iff.mp htoken
  have htext : f.text = "\t" ++ f.token ++ " " ++ m.name ++ arraySuffix m.arraySize ++ ";\n" := by
    rw [Field.text, hname, hsize]
  rw [htext, arraySuffix]
  by_cases hone : m.arraySize = 1
  · rw [if_pos hone, String.append_empty]
    exact .single hword hone
  · have hend : "]" ++ ";\n" = "];\n" := by decide
    rw [if_neg hone]
    have hline := MemberLine.array hword hone
    simpa only [← hend, String.append_assoc] using hline

end Member

theorem MemberLine.hasMemberWord {m : StructMember} {line : String} (h : MemberLine m line) :
    HasMemberWord m.type := by
  cases h with
  | single word h => exact ⟨_, word⟩
  | array word h => exact ⟨_, word⟩

/-- The fields of a struct are written as the lines of its members, in order. -/
theorem memberLines_text {owner : String} {members : List StructMember} {fields : List Field}
    (h : memberFields owner members = .ok fields) :
    List.Forall₂ MemberLine members (fields.map Field.text) := by
  rw [List.forall₂_map_right_iff]
  exact (memberFields_eq_ok h).imp fun _ _ hf => memberLine_text hf.1 hf.2.1 hf.2.2

/-! ## Structs -/

namespace Emitter

/-- **A struct is declared whole or not at all.**  A struct command is accepted exactly if the types
of all members have words.  It then writes the opening line, one line for each member in order, and
the closing line at the end of the preamble, and changes nothing else.  Otherwise it is refused for
the first member without a word, under the names of the struct and the member and with the
description of the member's type, and leaves no trace. -/
theorem struct_declared_whole (g : Emitter) (s : StructType) :
    let outcome := step (.declareStruct s) g
    (outcome.result.isOk = true ↔ ∀ m ∈ s.members, HasMemberWord m.type) ∧
    ((∃ d lines,
        outcome = .accepted { g with declarations := g.declarations ++ [d] } .done
          [.structEmitted s.name] ∧
        List.Forall₂ MemberLine s.members lines ∧
        d.text = "struct " ++ s.name ++ "_t \x7b\n" ++ joinTexts lines ++ "\x7d;\n\n" ∧
        outcome.state.preamble = g.preamble ++ d.text) ∨
      ∃ before m after, s.members = before ++ m :: after ∧
        (∀ k ∈ before, HasMemberWord k.type) ∧ ¬ HasMemberWord m.type ∧
        outcome = .refused g
          (.unmappableType ("struct member '" ++ s.name ++ "." ++ m.name ++ "'")
            m.type.describe)) := by
  intro outcome
  cases hfields : memberFields s.name s.members with
  | ok fields =>
    have form : structDeclaration s = .ok (.struct s.name fields) := by
      rw [structDeclaration, hfields]
      rfl
    have haccepted : outcome = .accepted (g.declare (.struct s.name fields)) .done
        [.structEmitted s.name] :=
      Action.bind_accepted (declareStruct_accepted form) rfl
    have hlines := memberLines_text hfields
    refine ⟨?_, Or.inl ⟨.struct s.name fields, fields.map Field.text, haccepted, hlines, ?_, ?_⟩⟩
    · -- a member with a line has a word
      have hwords := (List.forall₂_and_left _ _).mp
        (hlines.imp fun _ _ hline => ⟨hline.hasMemberWord, hline⟩)
      rw [haccepted]
      exact iff_of_true rfl hwords.1
    · have hopening : "_t" ++ " \x7b\n" = "_t \x7b\n" := by decide
      rw [text_struct, structToken, ← hopening]
      simp only [String.append_assoc]
    · rw [haccepted]
      exact preamble_declare g _
  | error e =>
    obtain ⟨before, m, after, hsplit, hbefore, hm⟩ := memberFields_eq_error_iff.mp hfields
    obtain ⟨hword, rfl⟩ := memberField_eq_error_iff.mp hm
    have hrefused : outcome = .refused g
        (.unmappableType ("struct member '" ++ s.name ++ "." ++ m.name ++ "'")
          m.type.describe) := by
      refine Action.bind_refused ?_ _
      rw [declareStruct, structDeclaration, hfields]
      rfl
    refine ⟨?_, Or.inr ⟨before, m, after, hsplit, ?_, hword, hrefused⟩⟩
    · rw [hrefused]
      refine iff_of_false Bool.false_ne_true fun hall => hword (hall m ?_)
      rw [hsplit]
      exact List.mem_append_right before List.mem_cons_self
    · intro k hk
      exact exists_memberField_iff.mp (hbefore k hk)

end Emitter

end GlslEmit
