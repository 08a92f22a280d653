/-
# Index masks as finite sets

The ones of a mask are a finite set of sub-indices below 64.  Every command does to the set what its
name says, and what a run of commands leaves in the set is read off the commands alone.

* `IndexMask.ext_contains`: the members determine the mask;
* `IndexMask.size_eq_card`: counting the ones of the word is counting the members;
* `IndexMask.contains_step_iff` and `IndexMask.contains_run_iff`: the members behind one command and
  behind a run;
* `IndexMask.stepWith_eq`: no answer hangs on a shift by 64 or more;
* `IndexMask.holds_inserted_since_clear` puts these together.
-/
import Mathlib.Data.Finset.Card
import GlslEmit.Resource.IndexMask.Command

namespace GlslEmit.IndexMask

variable {mask mask' : IndexMask} {i j : UInt32} {c : Command} {commands : List Command}

/-! ## Members -/

theorem toNat_ofNat_of_small {k : Nat} (h : k < 64) : (UInt32.ofNat k).toNat = k :=
  UInt32.toNat_ofNat_of_lt' (Nat.lt_trans h (by decide))

/-- Below 64, membership is a bit of the word. -/
theorem contains_ofNat (mask : IndexMask) {k : Nat} (h : k < 64) :
    mask.contains (UInt32.ofNat k) = mask.bits.toBitVec.getLsbD k := by
  have hsmall : UInt32.ofNat k < maxSubIndices := by
    rw [UInt32.lt_iff_toNat_lt, toNat_ofNat_of_small h]
    exact h
  rw [Bool.eq_iff_iff, contains_eq_true_iff, toNat_ofNat_of_small h]
  exact and_iff_right hsmall

/-- The members determine the mask. -/
theorem ext_contains (h : ∀ i, mask.contains i = mask'.contains i) : mask = mask' := by
  obtain ⟨bits⟩ := mask
  obtain ⟨bits'⟩ := mask'
  have hbits : bits.toBitVec = bits'.toBitVec := by
    apply BitVec.eq_of_getLsbD_eq
    intro k hk
    rw [← contains_ofNat ⟨bits⟩ hk, h, contains_ofNat _ hk]
  rw [UInt64.toBitVec_inj.mp hbits]

theorem mem_toList : i ∈ mask.toList ↔ mask.contains i = true := by
  rw [toList, List.mem_filter, and_iff_right_iff_imp, List.mem_map]
  intro h
  exact ⟨i.toNat, List.mem_range.mpr (contains_eq_true_iff.mp h).1, UInt32.ofNat_toNat⟩

theorem nodup_toList : mask.toList.Nodup := by
  have hindices : ((List.range maxSubIndices.toNat).map UInt32.ofNat).Nodup := by
    refine List.nodup_range.map_on fun k hk l hl h => ?_
    have hnumbers := congrArg UInt32.toNat h
    rwa [toNat_ofNat_of_small (List.mem_range.mp hk),
      toNat_ofNat_of_small (List.mem_range.mp hl)] at hnumbers
  exact hindices.filter _

/-- The members of a mask, as a finite set. -/
def members (mask : IndexMask) : Finset UInt32 := mask.toList.toFinset

theorem mem_members : i ∈ mask.members ↔ mask.contains i = true := by
  rw [members, List.mem_toFinset, mem_toList]

/-! ## Counting -/

/-- The ones of a word are counted place by place. -/
theorem cpopNatRec_eq_countP {w : Nat} (word : BitVec w) (count : Nat) :
    word.cpopNatRec count 0 = (List.range count).countP word.getLsbD := by
  induction count with
  | zero => rfl
  | succ count ih =>
    rw [BitVec.cpopNatRec_succ, BitVec.cpopNatRec_eq, ih, List.range_succ, List.countP_append,
      List.countP_singleton, Nat.zero_add]
    cases word.getLsbD count <;> rfl

/-- The ones of the word are as many as the members. -/
theorem size_eq_card (mask : IndexMask) : mask.size = mask.members.card := by
  have hplaces : ∀ k ∈ List.range 64,
      mask.bits.toBitVec.getLsbD k = true ↔ (mask.contains ∘ UInt32.ofNat) k = true := by
    intro k hk
    rw [Function.comp, contains_ofNat mask (List.mem_range.mp hk)]
  calc mask.size
      = (List.range 64).countP mask.bits.toBitVec.getLsbD := by
        rw [size, BitVec.toNat_cpop, cpopNatRec_eq_countP]
    _ = (List.range 64).countP (mask.contains ∘ UInt32.ofNat) := List.countP_congr hplaces
    _ = mask.toList.length := by
        rw [← List.countP_map, List.countP_eq_length_filter]
        rfl
    _ = mask.members.card := (List.toFinset_card_of_nodup nodup_toList).symm

/-- A mask without members counts none. -/
theorem isEmpty_iff : mask.isEmpty = true ↔ mask.size = 0 := by
  have hempty : mask.isEmpty = true ↔ mask = empty := by
    rw [isEmpty, beq_iff_eq]
    exact ⟨fun h => congrArg mk h, congrArg bits⟩
  rw [hempty, size_eq_card, Finset.card_eq_zero, Finset.eq_empty_iff_forall_notMem]
  constructor
  · rintro rfl i hi
    rw [mem_members, contains_empty] at hi
    cases hi
  · intro hnone
    refine ext_contains fun i => ?_
    rw [contains_empty, Bool.eq_false_iff]
    exact fun hi => hnone i (mem_members.mpr hi)

/-! ## One command -/

theorem insert_of_large (h : ¬ i < maxSubIndices) : mask.insert i = (false, mask) := if_neg h

/-- An insertion answers whether the index is below 64 and no member yet. -/
theorem insert_fst_iff :
    (mask.insert i).1 = true ↔ i < maxSubIndices ∧ mask.contains i = false := by
  by_cases h : i < maxSubIndices
  · simp [insert, h]
  · simp [insert, h]

/-- Behind an insertion the members are the index, if it is below 64, and the old members. -/
theorem contains_insert_snd_iff : (mask.insert i).2.contains j = true ↔
    (i < maxSubIndices ∧ i = j) ∨ mask.contains j = true := by
  by_cases h : i < maxSubIndices
  · rw [contains_insert_iff h, and_iff_right h]
  · rw [insert_of_large h, or_iff_right fun hsmall => h hsmall.1]

/-- The members behind a command: an index that it inserts, and the members before it unless it
clears the mask. -/
theorem contains_step_iff : (step c mask).2.contains i = true ↔
    (i < maxSubIndices ∧ c = .insert i) ∨ (c ≠ .clear ∧ mask.contains i = true) := by
  cases c with
  | insert j =>
    rw [step, contains_insert_snd_iff, Command.insert.injEq]
    constructor
    · rintro (⟨h, rfl⟩ | h)
      · exact Or.inl ⟨h, rfl⟩
      · exact Or.inr ⟨nofun, h⟩
    · rintro (⟨h, rfl⟩ | ⟨-, h⟩)
      · exact Or.inl ⟨h, rfl⟩
      · exact Or.inr h
  | clear => simp [step]
  | contains j => simp [step]

/-! ## Runs -/

/-- An index is inserted by a command of the list, and no later one clears the mask. -/
def InsertedSinceClear (i : UInt32) (commands : List Command) : Prop :=
  ∃ before after, commands = before ++ .insert i :: after ∧ .clear ∉ after

theorem not_insertedSinceClear_nil : ¬ InsertedSinceClear i [] := by
  rintro ⟨before, after, hsplit, -⟩
  cases before <;> cases hsplit

theorem insertedSinceClear_cons : InsertedSinceClear i (c :: commands) ↔
    InsertedSinceClear i commands ∨ (.clear ∉ commands ∧ c = .insert i) := by
  constructor
  · rintro ⟨before, after, hsplit, hkept⟩
    cases before with
    | nil =>
      cases hsplit
      exact Or.inr ⟨hkept, rfl⟩
    | cons d before =>
      cases hsplit
      exact Or.inl ⟨before, after, rfl, hkept⟩
  · rintro (⟨before, after, rfl, hkept⟩ | ⟨hkept, rfl⟩)
    · exact ⟨c :: before, after, rfl, hkept⟩
    · exact ⟨[], commands, rfl, hkept⟩

/-- The members behind a run: the indices below 64 that were inserted since the last clear, and the
members before the run unless there was a clear. -/
theorem contains_run_iff : (run commands mask).contains i = true ↔
    (i < maxSubIndices ∧ InsertedSinceClear i commands) ∨
      (.clear ∉ commands ∧ mask.contains i = true) := by
  induction commands generalizing mask with
  | nil => simp [run, not_insertedSinceClear_nil]
  | cons c commands ih =>
    have hrun : run (c :: commands) mask = run commands (step c mask).2 := rfl
    rw [hrun, ih, contains_step_iff, insertedSinceClear_cons, List.mem_cons]
    -- what `c` inserts or keeps is there unless a later command clears it
    tauto

/-! ## Shifts -/

/-- Runs one command, with the shifted words supplied by `word`.  The word of an index is asked for
exactly where the command shifts by the index, and without that word there is no answer. -/
def stepWith (word : UInt32 → Option UInt64) : Command → IndexMask → Option (Answer × IndexMask)
  | .insert index, mask =>
    if index < maxSubIndices then do
      let one ← word index
      return (.flag (mask.bits &&& one == 0), ⟨mask.bits ||| one⟩)
    else return (.flag false, mask)
  | .clear, _ => return (.done, empty)
  | .contains index, mask =>
    if index < maxSubIndices then do
      let one ← word index
      return (.flag (mask.bits &&& one != 0), mask)
    else return (.flag false, mask)

/-- Runs a list of commands, with the shifted words supplied by `word`. -/
def runWith (word : UInt32 → Option UInt64) (commands : List Command) (mask : IndexMask) :
    Option IndexMask :=
  commands.foldlM (fun mask c => (stepWith word c mask).map (·.2)) mask

section Shifts

variable {word : UInt32 → Option UInt64} (hword : ∀ i < maxSubIndices, word i = some (bit i))
include hword

/-- A command asks for no word but those of the indices below 64. -/
theorem stepWith_eq (c : Command) (mask : IndexMask) : stepWith word c mask = some (step c mask) := by
  cases c with
  | insert i =>
    by_cases h : i < maxSubIndices
    · simp [stepWith, step, insert, contains, h, hword i h, bne]
    · simp [stepWith, step, insert, h]
  | clear => rfl
  | contains i =>
    by_cases h : i < maxSubIndices
    · simp [stepWith, step, contains, h, hword i h]
    · simp [stepWith, step, contains, h]

theorem runWith_eq (commands : List Command) (mask : IndexMask) :
    runWith word commands mask = some (run commands mask) := by
  induction commands generalizing mask with
  | nil => rfl
  | cons c commands ih =>
    have hrun : runWith word (c :: commands) mask =
        (stepWith word c mask).map (·.2) >>= runWith word commands := rfl
    rw [hrun, stepWith_eq hword]
    exact ih _

end Shifts

/-- **A mask holds what was inserted since the last clear.**  Take any run of commands on the mask
without members.  An index is a member behind it exactly if it is below 64 and was inserted since
the last clear.  An insertion answers whether its index is below 64 and no member yet; it makes an
index below 64 a member, leaves every other index as it was, and changes nothing for an index from
64 on.  The members are a finite set, and the mask counts them; it is empty exactly if it counts
none.  No shift by 64 or more takes part: whatever word an index from 64 on had, or if it had none,
the run would lead to the same mask and each further command to the same answer. -/
theorem holds_inserted_since_clear (commands : List Command) :
    let mask := run commands empty
    (∀ i, mask.contains i = true ↔ i < 64 ∧ InsertedSinceClear i commands) ∧
    (∀ i,
      ((mask.insert i).1 = true ↔ i < 64 ∧ mask.contains i = false) ∧
      (i < 64 → (mask.insert i).2.contains i = true) ∧
      (∀ j, j ≠ i → (mask.insert i).2.contains j = mask.contains j) ∧
      (¬ i < 64 → mask.insert i = (false, mask))) ∧
    (∀ i, i ∈ mask.members ↔ mask.contains i = true) ∧
    mask.size = mask.members.card ∧
    (mask.isEmpty = true ↔ mask.size = 0) ∧
    ∀ word : UInt32 → Option UInt64, (∀ i < 64, word i = some (bit i)) →
      runWith word commands empty = some mask ∧ ∀ c, stepWith word c mask = some (step c mask) := by
  intro mask
  refine ⟨fun i => ?_, fun i => ⟨insert_fst_iff, fun h => ?_, fun j hj => ?_, insert_of_large⟩,
    fun i => mem_members, size_eq_card mask, isEmpty_iff,
    fun word hword => ⟨runWith_eq hword commands empty, fun c => stepWith_eq hword c mask⟩⟩
  · have hnone : ¬ (.clear ∉ commands ∧ empty.contains i = true) := by simp
    rw [contains_run_iff, or_iff_left hnone]
    rfl
  · exact contains_insert_snd_iff.mpr (Or.inl ⟨h, rfl⟩)
  · have hother : ¬ (i < maxSubIndices ∧ i = j) := fun h => hj h.2.symm
    rw [Bool.eq_iff_iff, contains_insert_snd_iff, or_iff_right hother]

/-- The top bit stays behind a clear and a repeated insertion, and index 64 does not wrap around to
the lowest bit. -/
theorem holds_inserted_since_clear_top_bit :
    let commands : List Command :=
      [.insert 3, .insert 63, .clear, .insert 63, .contains 3, .insert 64, .insert 7, .insert 63]
    let mask := run commands empty
    let word : UInt32 → Option UInt64 := fun i => if i < 64 then some (bit i) else none
    mask.contains 63 = true ∧ mask.contains 3 = false ∧ mask.contains 0 = false ∧
      ((3 : UInt32) < 64 ∧ (mask.insert 3).1 = true ∧ (mask.insert 3).2.contains 3 = true ∧
        (63 : UInt32) ≠ 3 ∧ (mask.insert 3).2.contains 63 = true) ∧
      (¬ (64 : UInt32) < 64 ∧ mask.insert 64 = (false, mask)) ∧
      mask.members.card = 2 ∧
      ((∀ i < 64, word i = some (bit i)) ∧ word 64 = none ∧
        runWith word commands empty = some mask) := by
  intro commands mask word
  obtain ⟨hcontains, hinsert, -, hsize, -, hshifts⟩ := holds_inserted_since_clear commands
  have htop : mask.contains 63 = true :=
    (hcontains 63).mpr ⟨by decide, [.insert 3, .insert 63, .clear],
      [.contains 3, .insert 64, .insert 7, .insert 63], rfl, by decide⟩
  have hthree : mask.contains 3 = false := by decide
  have hcount : mask.size = 2 := by decide
  have hword : ∀ i < 64, word i = some (bit i) := fun i hi => if_pos hi
  obtain ⟨hnew, hmade, hkept, -⟩ := hinsert 3
  obtain ⟨-, -, -, hlarge⟩ := hinsert 64
  refine ⟨htop, hthree, by decide, ⟨by decide, hnew.mpr ⟨by decide, hthree⟩, hmade (by decide),
    by decide, (hkept 63 (by decide)).trans htop⟩, ⟨by decide, hlarge (by decide)⟩,
    hsize.symm.trans hcount, hword, rfl, (hshifts word hword).1⟩

end GlslEmit.IndexMask
