/-
# Index masks

A set of sub-indices below 64, held as the bits of one word. Larger indices are no members and
cannot become members, so that no shift ever leaves the word.

* `IndexMask.insert` says whether the index is a new member;
* `IndexMask.size` counts the ones of the word, `IndexMask.toList` lists the members;
* `IndexMask.contains_empty`: the empty mask has no members;
* `IndexMask.contains_insert_iff`: an insertion adds one member and keeps the others.
-/
namespace GlslEmit

/-- How many sub-indices a stage can refer to. -/
def maxSubIndices : UInt32 := 64

/-- A set of sub-indices: bit `i` says whether `i` is a member. -/
structure IndexMask where
  bits : UInt64
  deriving DecidableEq

namespace IndexMask

/-- The set without members. -/
def empty : IndexMask := ⟨0⟩

/-- The word with the one bit of an index below 64. -/
def bit (index : UInt32) : UInt64 := (1 : UInt64) <<< index.toUInt64

/-- Whether an index is a member. -/
def contains (mask : IndexMask) (index : UInt32) : Bool :=
  index < maxSubIndices && mask.bits &&& bit index != 0

/-- Makes an index a member. The answer is `false`, and the mask is as before, if the index was
a member already or is not below 64. -/
def insert (mask : IndexMask) (index : UInt32) : Bool × IndexMask :=
  if index < maxSubIndices then (!mask.contains index, ⟨mask.bits ||| bit index⟩)
  else (false, mask)

/-- Whether there are no members. -/
def isEmpty (mask : IndexMask) : Bool := mask.bits == 0

/-- The members, in increasing order. -/
def toList (mask : IndexMask) : List UInt32 :=
  ((List.range maxSubIndices.toNat).map UInt32.ofNat).filter mask.contains

/-- The number of members: the ones of the word are counted. -/
def size (mask : IndexMask) : Nat := mask.bits.toBitVec.cpop.toNat

@[simp] theorem contains_empty (index : UInt32) : empty.contains index = false := by
  simp [contains, empty]

/-! ## Membership -/

/-- The word of an index has a bit at its own place alone. -/
theorem testBit_bit {i : UInt32} (h : i < maxSubIndices) (j : Nat) :
    (bit i).toNat.testBit j = decide (i.toNat = j) := by
  have hi : i.toNat < 64 := h
  have hpow : 2 ^ i.toNat < 2 ^ 64 := Nat.pow_lt_pow_right (by decide) hi
  have hbit : (bit i).toNat = 2 ^ i.toNat := by
    rw [bit, UInt64.toNat_shiftLeft, UInt32.toNat_toUInt64, Nat.mod_eq_of_lt hi, UInt64.toNat_one,
      Nat.one_shiftLeft, Nat.mod_eq_of_lt hpow]
  rw [hbit, Nat.testBit_two_pow]

theorem and_bit_eq_zero_iff (bits : UInt64) {i : UInt32} (h : i < maxSubIndices) :
    bits &&& bit i = 0 ↔ bits.toNat.testBit i.toNat = false := by
  rw [← UInt64.toNat_inj, UInt64.toNat_and, UInt64.toNat_zero]
  constructor
  · intro hzero
    have hbit := congrArg (Nat.testBit · i.toNat) hzero
    simpa [testBit_bit h] using hbit
  · intro hbit
    apply Nat.eq_of_testBit_eq
    intro j
    rw [Nat.testBit_and, testBit_bit h, Nat.zero_testBit]
    by_cases hj : i.toNat = j
    · rw [← hj, hbit, Bool.false_and]
    · rw [decide_eq_false hj, Bool.and_false]

/-- Membership is one bit of the word. -/
theorem contains_eq_true_iff {mask : IndexMask} {i : UInt32} :
    mask.contains i = true ↔ i < maxSubIndices ∧ mask.bits.toNat.testBit i.toNat = true := by
  rw [contains]
  by_cases h : i < maxSubIndices
  · simp [h, and_bit_eq_zero_iff]
  · simp [h]

/-- After the insertion of an index below 64 the members are that index and the old members. -/
theorem contains_insert_iff {mask : IndexMask} {i j : UInt32} (h : i < maxSubIndices) :
    (mask.insert i).2.contains j = true ↔ i = j ∨ mask.contains j = true := by
  rw [insert, if_pos h, contains_eq_true_iff, contains_eq_true_iff, UInt64.toNat_or,
    Nat.testBit_or, testBit_bit h, Bool.or_eq_true, decide_eq_true_eq, UInt32.toNat_inj]
  constructor
  · rintro ⟨hj, hbit | hij⟩
    · exact Or.inr ⟨hj, hbit⟩
    · exact Or.inl hij
  · rintro (rfl | ⟨hj, hbit⟩)
    · exact ⟨h, Or.inr rfl⟩
    · exact ⟨hj, Or.inl hbit⟩

end IndexMask

end GlslEmit
