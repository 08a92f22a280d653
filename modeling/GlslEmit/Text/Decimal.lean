/-
# Numbers in names

Many names end in a number, which is written in decimal digits.

* `isDigit_of_mem_decimal`: a number is written in digits only;
* `decimal_injective`: different numbers are written differently.
-/
namespace GlslEmit

theorem decimal_toList (n : UInt32) : (toString n).toList = Nat.toDigits 10 n.toNat :=
  Nat.toList_repr

/-- A number is written in digits only. -/
theorem isDigit_of_mem_decimal {n : UInt32} {c : Char} (h : c ∈ (toString n).toList) :
    c.isDigit = true := by
  rw [decimal_toList] at h
  exact Nat.isDigit_of_mem_toDigits (by decide) (by decide) h

/-- Different numbers are written differently. -/
theorem decimal_injective {m n : UInt32} (h : toString m = toString n) : m = n := by
  have hdigits := congrArg String.toList h
  rw [decimal_toList, decimal_toList] at hdigits
  have hnumbers := congrArg (Nat.ofDigitChars 10 · 0) hdigits
  simp only [Nat.ofDigitChars_ten_toDigits] at hnumbers
  exact UInt32.toNat_inj.mp hnumbers

end GlslEmit
