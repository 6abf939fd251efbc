/-
# `Proofs.Number.Estimate` — how far the reading of a decimal is from the decimal

A decimal with fewer digits than a double has bits is read with two roundings, that of the power of ten and that of the
product or quotient (`estimateOf?_spec`).  The powers up to the twenty-second are exact, so that there only one is left.

| exponent of the decimal | what is computed | roundings |
| :-- | :-- | :-- |
| none or small and positive | digits times an exact power of ten | one |
| small and negative | digits over an exact power of ten | one |
| large | the same with a power that is itself rounded | two |

The relative error of one rounding is `halfStep`, and of two at most `readingError`.  All numbers on the way are far from
the least and the greatest doubles (`moderate_of_power`), so that the errors are relative ones.
-/
import Consolidation.Number.Estimate
import Consolidation.Proofs.Number.BinaryFormat

namespace Consolidation.Number

namespace BinaryFormat

/-! ## Doubles of full precision -/

/-- A number that is far from the least and the greatest doubles. -/
structure Moderate (v : ℚ) : Prop where
  le : 2 ^ (-255 : ℤ) ≤ v
  lt : v < 2 ^ (255 : ℤ)

/-- The part of a double by which rounding changes it at most. -/
def halfStep : ℚ := 1 / 2 ^ 53

/-- A double to which a number rounds with a small relative error. -/
structure Approximates (m : Nat) (v : ℚ) : Prop where
  rounds : double.Rounds m v
  finite : m < double.infinity
  close : |v - double.value m| ≤ halfStep * double.value m

theorem Moderate.pos {v : ℚ} (h : Moderate v) : 0 < v :=
  (by positivity : (0 : ℚ) < 2 ^ (-255 : ℤ)).trans_le h.le

theorem Moderate.approximates {num den : Nat} (hden : 0 < den) (h : Moderate (num / den)) :
    Approximates (double.nearest num den) (num / den) := by
  have hnum : 0 < num := by
    have hpos := h.pos
    rw [div_eq_mul_inv] at hpos
    exact pos_of_cast_mul_pos hpos
  obtain ⟨m, hrounds, hnearest⟩ := exists_rounds (f := double) (by decide) hnum hden
  have hnormal : 2 ^ 52 ≤ m := by
    have hfirst := value_add (f := double) (j := 0) (n := 2 ^ 52) (by decide) (.inl (by decide))
    rw [Nat.zero_mul, Nat.zero_add, Nat.cast_pow, Nat.cast_ofNat, ← zpow_natCast,
      ← zpow_add₀ two_ne_zero] at hfirst
    refine hrounds.le_of_value_le (hfirst.trans_le (le_trans ?_ h.le))
    exact zpow_le_zpow_right₀ one_le_two (by decide)
  have hfinite : m < double.infinity := by
    have hlast := value_add (f := double) (j := 1277) (n := 2 ^ 52) (by decide) (.inl (by decide))
    rw [Nat.cast_pow, Nat.cast_ofNat, ← zpow_natCast, ← zpow_add₀ two_ne_zero] at hlast
    refine (hrounds.le_of_lt_middle (h.lt.trans ?_)).trans_lt
      (by decide : 1277 * 2 ^ 52 + 2 ^ 52 < double.infinity)
    exact lt_of_eq_of_lt hlast.symm (value_lt_middle _)
  rw [hnearest, Nat.min_eq_left hfinite.le]
  refine ⟨hrounds, hfinite, ?_⟩
  have hclose := hrounds.abs_sub_le hnormal
  rw [halfStep, div_mul_eq_mul_div, one_mul, le_div_iff₀ (by positivity)]
  calc |(num : ℚ) / den - double.value m| * 2 ^ 53
      = |(num : ℚ) / den - double.value m| * (2 * 2 ^ double.fractionBits) := by norm_num [double]
    _ ≤ double.value m := hclose

theorem Approximates.value_eq {m : Nat} {v : ℚ} (h : Approximates m v) {n : Nat} {s : ℤ} (hn : n < 2 ^ 53)
    (hs : -1074 ≤ s) (hv : v = n * 2 ^ s) : double.value m = v := by
  obtain ⟨j, hj⟩ := Int.eq_ofNat_of_zero_le (by omega : 0 ≤ s + 1074)
  obtain rfl : s = (j : ℤ) - 1074 := by omega
  exact h.rounds.value_eq hn hv

theorem Approximates.le_two_mul {m : Nat} {v : ℚ} (h : Approximates m v) :
    v ≤ 2 * double.value m ∧ double.value m ≤ 2 * v := by
  have hclose := abs_le.1 h.close
  have hnonneg := value_nonneg (f := double) m
  unfold halfStep at hclose
  constructor <;> linarith

/-! ## Integers, products and quotients -/

theorem Moderate.approximates_nat {n : Nat} (h : Moderate n) : Approximates (double.nearest n 1) n := by
  have hone : (n : ℚ) / (1 : ℕ) = n := by simp
  rw [← hone] at h
  exact hone ▸ h.approximates one_pos

theorem Moderate.approximates_product {a b : Nat} (h : Moderate (double.value a * double.value b)) :
    Approximates (double.product a b) (double.value a * double.value b) := by
  obtain ⟨ha, hadenominator⟩ := double.quotient_eq a
  obtain ⟨hb, hbdenominator⟩ := double.quotient_eq b
  have hquotient : (((double.quotient a).1 * (double.quotient b).1 : ℕ) : ℚ) /
      ((double.quotient a).2 * (double.quotient b).2 : ℕ) = double.value a * double.value b := by
    rw [← ha, ← hb]
    push_cast
    rw [div_mul_div_comm]
  rw [← hquotient] at h ⊢
  exact h.approximates (Nat.mul_pos hadenominator hbdenominator)

theorem Moderate.approximates_ratio {a b : Nat} (h : Moderate (double.value a / double.value b)) :
    Approximates (double.ratio a b) (double.value a / double.value b) := by
  obtain ⟨ha, hadenominator⟩ := double.quotient_eq a
  obtain ⟨hb, hbdenominator⟩ := double.quotient_eq b
  have hnumerator : 0 < (double.quotient b).1 := by
    have hpos : 0 < double.value b := by
      refine (value_nonneg b).lt_of_ne' fun hzero => h.pos.ne' ?_
      rw [hzero, div_zero]
    rw [← hb, div_eq_mul_inv] at hpos
    exact pos_of_cast_mul_pos hpos
  have hquotient : (((double.quotient a).1 * (double.quotient b).2 : ℕ) : ℚ) /
      ((double.quotient a).2 * (double.quotient b).1 : ℕ) = double.value a / double.value b := by
    rw [← ha, ← hb]
    push_cast
    rw [div_div_div_eq]
  rw [← hquotient] at h ⊢
  exact h.approximates (Nat.mul_pos hadenominator hnumerator)

end BinaryFormat

open BinaryFormat

namespace Decimal

/-! ## The parts of an estimate -/

theorem value_nearest_digits {digits : Nat} (hpos : 0 < digits) (hlt : digits < 2 ^ 53) :
    double.value (double.nearest digits 1) = digits := by
  have hone : (1 : ℚ) ≤ digits := by exact_mod_cast hpos
  have hlt' : (digits : ℚ) < 2 ^ 53 := by exact_mod_cast hlt
  have hmoderate : Moderate digits :=
    ⟨(zpow_le_one_of_nonpos₀ one_le_two (by decide)).trans hone, hlt'.trans (by norm_num)⟩
  exact hmoderate.approximates_nat.value_eq hlt (by decide : (-1074 : ℤ) ≤ 0) (by simp)

theorem approximates_powerOfTen {k : Nat} (hk : k ≤ 60) : Approximates (powerOfTen k) (10 ^ k) := by
  have hone : (1 : ℚ) ≤ (10 ^ k : ℕ) := by exact_mod_cast Nat.one_le_pow _ _ (by decide)
  have hle : ((10 ^ k : ℕ) : ℚ) ≤ (10 ^ 60 : ℕ) := by exact_mod_cast Nat.pow_le_pow_right (by decide) hk
  have hmoderate : Moderate (10 ^ k : ℕ) :=
    ⟨(zpow_le_one_of_nonpos₀ one_le_two (by decide)).trans hone, hle.trans_lt (by norm_num)⟩
  exact_mod_cast hmoderate.approximates_nat

theorem value_powerOfTen {k : Nat} (hk : k ≤ 22) : double.value (powerOfTen k) = 10 ^ k := by
  refine (approximates_powerOfTen (by omega)).value_eq (n := 5 ^ k) (s := k) ?_ (by omega) ?_
  · exact (Nat.pow_le_pow_right (by decide) hk).trans_lt (by decide)
  · rw [zpow_natCast, Nat.cast_pow, Nat.cast_ofNat, ← mul_pow]
    norm_num

/-! ## Estimates -/

/-- The part of a double by which reading a decimal changes it at most. -/
def readingError : ℚ := 2 * halfStep + 4 * halfStep ^ 2

section Estimates

variable {digits k : Nat}

/-- The product of digits and a power of ten is far from the least and the greatest doubles, and so is their quotient. -/
theorem moderate_of_power (hpos : 0 < digits) (hlt : digits < 2 ^ 53) (hk : k ≤ 60) :
    Moderate (digits * double.value (powerOfTen k)) ∧ Moderate (digits / double.value (powerOfTen k)) := by
  obtain ⟨habove, hbelow⟩ := (approximates_powerOfTen hk).le_two_mul
  have hpower : (1 : ℚ) ≤ 10 ^ k := one_le_pow₀ (by norm_num)
  have hpower' : (10 : ℚ) ^ k ≤ 10 ^ 60 := pow_le_pow_right₀ (by norm_num) hk
  have hone : (1 : ℚ) ≤ digits := by exact_mod_cast hpos
  have hlt' : (digits : ℚ) < 2 ^ 53 := by exact_mod_cast hlt
  generalize double.value (powerOfTen k) = power at *
  have hhalf : 1 / 2 ≤ power := by linarith
  have hgreat : power ≤ 2 * 10 ^ 60 := by linarith
  refine ⟨⟨?_, ?_⟩, ?_, ?_⟩
  · calc (2 : ℚ) ^ (-255 : ℤ) ≤ 1 * (1 / 2) := by norm_num
      _ ≤ digits * power := by gcongr
  · calc digits * power ≤ 2 ^ 53 * (2 * 10 ^ 60) := by gcongr
      _ < 2 ^ (255 : ℤ) := by norm_num
  · rw [le_div_iff₀ (by linarith)]
    calc (2 : ℚ) ^ (-255 : ℤ) * power ≤ 2 ^ (-255 : ℤ) * (2 * 10 ^ 60) := by gcongr
      _ ≤ 1 := by norm_num
      _ ≤ digits := hone
  · rw [div_lt_iff₀ (by linarith)]
    calc (digits : ℚ) < 2 ^ 53 := hlt'
      _ ≤ 2 ^ (255 : ℤ) * (1 / 2) := by norm_num
      _ ≤ 2 ^ (255 : ℤ) * power := by gcongr

theorem estimateOf?_natCast (hpos : 0 < digits) (hlt : digits < 2 ^ 53) (hk : k ≤ 60) :
    ∃ m, estimateOf? digits k = some m ∧
      |digits * 10 ^ k - double.value m| ≤ readingError * double.value m ∧
      (k ≤ 22 → Approximates m (digits * 10 ^ k)) := by
  have hdigits := value_nearest_digits hpos hlt
  have hmoderate := (moderate_of_power hpos hlt hk).1
  rw [← hdigits] at hmoderate
  have hproduct := hmoderate.approximates_product
  rw [hdigits] at hproduct
  refine ⟨double.product (double.nearest digits 1) (powerOfTen k), ?_, ?_, ?_⟩
  · have hgreatest : (greatestPower : ℤ) = 308 := rfl
    unfold estimateOf?
    rw [if_neg (by omega), if_neg (by omega), if_neg (by omega), if_pos (by omega)]
    dsimp only
    rw [Int.toNat_natCast, if_neg (by simpa using hproduct.finite.ne)]
  · have hclose := abs_le.1 hproduct.close
    have hpower := abs_le.1 (approximates_powerOfTen hk).close
    have hnonneg := value_nonneg (f := double) (double.product (double.nearest digits 1) (powerOfTen k))
    generalize double.value (double.product (double.nearest digits 1) (powerOfTen k)) = result at *
    generalize double.value (powerOfTen k) = power at *
    have hscale := mul_le_mul_of_nonneg_left hpower.1 (Nat.cast_nonneg (α := ℚ) digits)
    have hscale' := mul_le_mul_of_nonneg_left hpower.2 (Nat.cast_nonneg (α := ℚ) digits)
    unfold readingError halfStep at *
    rw [abs_le]
    constructor <;> linarith
  · intro hsmall
    rwa [value_powerOfTen hsmall] at hproduct

theorem estimateOf?_neg (hpos : 0 < digits) (hlt : digits < 2 ^ 53) (h0 : 0 < k) (hk : k ≤ 60) :
    ∃ m, estimateOf? digits (-(k : ℤ)) = some m ∧
      |digits / 10 ^ k - double.value m| ≤ readingError * double.value m ∧
      (k ≤ 22 → Approximates m (digits / 10 ^ k)) := by
  have hdigits := value_nearest_digits hpos hlt
  have hmoderate := (moderate_of_power hpos hlt hk).2
  rw [← hdigits] at hmoderate
  have hratio := hmoderate.approximates_ratio
  rw [hdigits] at hratio
  refine ⟨double.ratio (double.nearest digits 1) (powerOfTen k), ?_, ?_, ?_⟩
  · have hgreatest : (greatestPower : ℤ) = 308 := rfl
    unfold estimateOf?
    rw [if_neg (by omega), if_neg (by omega), if_pos (by omega), neg_neg, Int.toNat_natCast]
  · have hclose := abs_le.1 hratio.close
    have hpower := abs_le.1 (approximates_powerOfTen hk).close
    have hnonneg := value_nonneg (f := double) (double.ratio (double.nearest digits 1) (powerOfTen k))
    have hpositive : 0 < double.value (powerOfTen k) := by
      have := (approximates_powerOfTen hk).le_two_mul.1
      have : (0 : ℚ) < 10 ^ k := by positivity
      linarith
    generalize double.value (double.ratio (double.nearest digits 1) (powerOfTen k)) = result at *
    generalize double.value (powerOfTen k) = power at *
    -- the two quotients differ by a small part of the first
    have hten : (0 : ℚ) < 10 ^ k := by positivity
    have hquotient : (digits : ℚ) / power = digits / 10 ^ k * (10 ^ k / power) := by field_simp
    have hbelow : 1 - halfStep ≤ 10 ^ k / power := by
      rw [le_div_iff₀ hpositive]
      linarith
    have habove : 10 ^ k / power ≤ 1 + halfStep := by
      rw [div_le_iff₀ hpositive]
      linarith
    have hvalue : (0 : ℚ) ≤ digits / 10 ^ k := by positivity
    have hscale := mul_le_mul_of_nonneg_left hbelow hvalue
    have hscale' := mul_le_mul_of_nonneg_left habove hvalue
    rw [← hquotient] at hscale hscale'
    unfold readingError halfStep at *
    rw [abs_le]
    constructor <;> linarith
  · intro hsmall
    rwa [value_powerOfTen hsmall] at hratio

end Estimates

/-- A decimal that is not too long is read as a double, with a small error, and as the nearest double if its exponent is
small. -/
theorem estimateOf?_spec {digits : Nat} {exponent : ℤ} (hpos : 0 < digits) (hlt : digits < 2 ^ 53)
    (hlow : -60 ≤ exponent) (hhigh : exponent ≤ 60) :
    ∃ m, estimateOf? digits exponent = some m ∧
      |digits * 10 ^ exponent - double.value m| ≤ readingError * double.value m ∧
      (-22 ≤ exponent → exponent ≤ 22 → Approximates m (digits * 10 ^ exponent)) := by
  rcases Int.lt_or_le exponent 0 with h | h
  · obtain ⟨k, rfl⟩ := Int.exists_eq_neg_ofNat h.le
    obtain ⟨m, hm, herror, hexact⟩ := estimateOf?_neg hpos hlt (by omega) (by omega : k ≤ 60)
    rw [zpow_neg, zpow_natCast, ← div_eq_mul_inv]
    exact ⟨m, hm, herror, fun hsmall _ => hexact (by omega)⟩
  · obtain ⟨k, rfl⟩ := Int.eq_ofNat_of_zero_le h
    obtain ⟨m, hm, herror, hexact⟩ := estimateOf?_natCast hpos hlt (by omega : k ≤ 60)
    rw [zpow_natCast]
    exact ⟨m, hm, herror, fun _ hsmall => hexact (by omega)⟩

end Decimal

end Consolidation.Number
