/-
# `Proofs.Number.Bracket` — how close a multiple of a power of five comes to an integer

A power of five, less a power of two, is a fraction between one and two (`FivePower.num_div_den`).  Mediants close in on
it from both sides (`Bracket.narrow`), and between two neighbours in such a search lies no fraction with smaller terms
than their mediant.  So only the two neighbours themselves can come close to it (`Bracket.Excludes.gap`).  For the
exponents that decimals of singles have, the few multiples of such a fraction that come closer to an integer than the
errors of reading are listed by `FivePower.closePairs`.

The search is for the best approximations of a fraction, as in the tree of mediants: a bracket of two neighbours is
narrowed on one side or the other, and stays `Adjacent`.  A pair of numbers whose second one is below the numerator of the
mediant is so many times one neighbour, less so many times the other (`Adjacent.combination`), and stays away from the
fraction as far as these do (`le_mul_add`).

A bracket is computed for each exponent and checked by evaluation; the check is one for all exponents of decimals of
singles, and what it cannot exclude is a short list of pairs.
-/
import Mathlib.Tactic.LinearCombination
import Consolidation.Proofs.Number.BinaryFormat

namespace Consolidation.Number

/-! ## Neighbouring fractions -/

/-- Two fractions, the lower one `p / r` and the upper one `p' / r'`. -/
structure Bracket where
  p : Nat
  r : Nat
  p' : Nat
  r' : Nat

namespace Bracket

/-- No fraction between the two has smaller terms than their mediant. -/
def Adjacent (b : Bracket) : Prop := b.p' * b.r = b.p * b.r' + 1

/-- Takes the mediant for one of the two fractions, so that the other side of `num / den` is kept, until the mediant has a
numerator above `limit`. -/
def narrow (num den limit : Nat) : Nat → Bracket → Bracket
  | 0, b => b
  | fuel + 1, b =>
    if limit ≤ b.p + b.p' then b
    else if (b.p + b.p') * den < num * (b.r + b.r') then
      narrow num den limit fuel { b with p := b.p + b.p', r := b.r + b.r' }
    else narrow num den limit fuel { b with p' := b.p + b.p', r' := b.r + b.r' }

theorem Adjacent.mediant {b : Bracket} (h : b.Adjacent) :
    Adjacent { b with p := b.p + b.p', r := b.r + b.r' } ∧ Adjacent { b with p' := b.p + b.p', r' := b.r + b.r' } := by
  unfold Adjacent at *
  dsimp only
  constructor <;> linarith

theorem Adjacent.narrow {num den limit fuel : Nat} {b : Bracket} (h : b.Adjacent) :
    (narrow num den limit fuel b).Adjacent := by
  induction fuel generalizing b with
  | zero => exact h
  | succ fuel ih =>
    unfold Bracket.narrow
    split
    · exact h
    · split
      · exact ih h.mediant.1
      · exact ih h.mediant.2

/-- How far the lower fraction is from `num / den`, times both denominators. -/
def below (b : Bracket) (num den : Nat) : Nat := num * b.r - b.p * den

/-- How far the upper fraction is from `num / den`, times both denominators. -/
def above (b : Bracket) (num den : Nat) : Nat := b.p' * den - num * b.r'

/-- The fractions of the bracket that come closer to `num / den` than one part of `parts`, each as the multiplier and the
integer to which it brings `num / den` close. -/
def closePairs (b : Bracket) (num den parts : Nat) : List (Nat × Nat) :=
  (if den ≤ parts * b.below num den then [] else [(b.r, b.p)]) ++
    (if den ≤ parts * b.above num den then [] else [(b.r', b.p')])

/-- Do all other multiples with a numerator below `limit` stay away? -/
def Excludes (b : Bracket) (num den limit parts : Nat) : Prop :=
  limit ≤ b.p + b.p' ∧ 0 < b.below num den ∧ 0 < b.above num den ∧
    den ≤ parts * (b.below num den + b.above num den) ∧
    (limit ≤ 2 * b.p ∨ den ≤ parts * (2 * b.below num den)) ∧
    (limit ≤ 2 * b.p' ∨ den ≤ parts * (2 * b.above num den))

instance (b : Bracket) (num den limit parts : Nat) : Decidable (b.Excludes num den limit parts) :=
  inferInstanceAs (Decidable (_ ∧ _ ∧ _ ∧ _ ∧ _ ∧ _))

/-- The multiples of one fraction of a bracket stay away, alone or taken together with the other one. -/
theorem le_mul_add {limit den parts p r u w i j k m : Nat} (hi : 0 < i) (hsum : den ≤ parts * (u + w))
    (htwice : limit ≤ 2 * p ∨ den ≤ parts * (2 * u))
    (halone : (k, m) ∉ if den ≤ parts * u then [] else [(r, p)]) (hm : m < limit)
    (hmultiple : j = 0 → k = i * r ∧ m = i * p) : den ≤ parts * (i * u + j * w) := by
  rcases Nat.eq_zero_or_pos j with rfl | hj
  · obtain ⟨rfl, rfl⟩ := hmultiple rfl
    rw [Nat.zero_mul, Nat.add_zero]
    rcases Nat.lt_or_ge 1 i with h | h
    · have hp := Nat.mul_le_mul_right p h
      exact (htwice.resolve_left (by omega)).trans (Nat.mul_le_mul_left _ (Nat.mul_le_mul_right u h))
    · obtain rfl : i = 1 := by omega
      by_contra hfar
      rw [Nat.one_mul] at hfar
      rw [if_neg hfar, Nat.one_mul, Nat.one_mul] at halone
      exact halone (List.mem_singleton_self _)
  · refine hsum.trans (Nat.mul_le_mul_left _ (Nat.add_le_add ?_ ?_))
    · exact Nat.le_mul_of_pos_left u hi
    · exact Nat.le_mul_of_pos_left w hj

/-- A pair of positive numbers, the second one below the numerator of the mediant, is one fraction so many times, less the
other one so many times. -/
theorem Adjacent.combination {b : Bracket} (h : b.Adjacent) {k m : Nat} (hk : 0 < k) (hm : m < b.p + b.p') :
    (∃ i j : ℕ, 0 < i ∧ (k : ℤ) = i * b.r - j * b.r' ∧ (m : ℤ) = i * b.p - j * b.p') ∨
      ∃ i j : ℕ, 0 < j ∧ (k : ℤ) = j * b.r' - i * b.r ∧ (m : ℤ) = j * b.p' - i * b.p := by
  obtain ⟨p, r, p', r'⟩ := b
  have hadjacent : (p' : ℤ) * r = p * r' + 1 := by exact_mod_cast h
  dsimp only at *
  obtain ⟨i, hi⟩ : ∃ i : ℤ, i = p' * k - r' * m := ⟨_, rfl⟩
  obtain ⟨j, hj⟩ : ∃ j : ℤ, j = r * m - p * k := ⟨_, rfl⟩
  have hk' : (k : ℤ) = i * r + j * r' := by
    rw [hi, hj]
    linear_combination (-(k : ℤ)) * hadjacent
  have hm' : (m : ℤ) = i * p + j * p' := by
    rw [hi, hj]
    linear_combination (-(m : ℤ)) * hadjacent
  clear hi hj
  have hp := Int.natCast_nonneg p
  have hp' := Int.natCast_nonneg p'
  have hr := Int.natCast_nonneg r
  have hr' := Int.natCast_nonneg r'
  rcases Int.lt_or_le 0 i with hi | hi
  · have hj : j ≤ 0 := by
      -- otherwise the second number is too large
      by_contra hj
      have : (p : ℤ) + p' ≤ i * p + j * p' := by nlinarith
      omega
    obtain ⟨i, rfl⟩ := Int.eq_ofNat_of_zero_le hi.le
    obtain ⟨j, rfl⟩ := Int.exists_eq_neg_ofNat hj
    exact .inl ⟨i, j, by omega, by rw [hk']; ring, by rw [hm']; ring⟩
  · have hj : 0 < j := by
      -- otherwise the first number is not positive
      by_contra hj
      have : i * r + j * r' ≤ 0 := by nlinarith
      omega
    obtain ⟨i, rfl⟩ := Int.exists_eq_neg_ofNat hi
    obtain ⟨j, rfl⟩ := Int.eq_ofNat_of_zero_le hj.le
    exact .inr ⟨i, j, by omega, by rw [hk']; ring, by rw [hm']; ring⟩

section Gap

variable {b : Bracket} {num den limit parts : Nat}

theorem cast_below (h : 0 < b.below num den) : (b.below num den : ℤ) = num * b.r - b.p * den := by
  rw [below, Nat.cast_sub (Nat.sub_pos_iff_lt.1 h).le]
  push_cast
  rfl

theorem cast_above (h : 0 < b.above num den) : (b.above num den : ℤ) = b.p' * den - num * b.r' := by
  rw [above, Nat.cast_sub (Nat.sub_pos_iff_lt.1 h).le]
  push_cast
  rfl

/-- A multiple of `num / den` comes close to an integer only as one of the fractions of a bracket. -/
theorem Excludes.gap (h : b.Excludes num den limit parts) (hadjacent : b.Adjacent) {k m : Nat} (hk : 0 < k)
    (hm : m < limit) (hclose : (k, m) ∉ b.closePairs num den parts) :
    (den : ℤ) ≤ parts * |(k * num : ℤ) - m * den| := by
  obtain ⟨hlimit, hbelow, habove, hsum, hlower, hupper⟩ := h
  have hu := cast_below hbelow
  have hw := cast_above habove
  rw [closePairs, List.mem_append, not_or] at hclose
  obtain ⟨hnotlower, hnotupper⟩ := hclose
  generalize b.below num den = u at *
  generalize b.above num den = w at *
  rcases hadjacent.combination hk (hm.trans_le hlimit) with ⟨i, j, hi, hk', hm'⟩ | ⟨i, j, hj, hk', hm'⟩
  · have hdistance : (k * num : ℤ) - m * den = (i * u + j * w : ℕ) := by
      push_cast
      rw [hk', hm', hu, hw]
      ring
    rw [hdistance, Nat.abs_cast]
    refine Int.ofNat_le.2 (le_mul_add hi hsum hlower hnotlower hm ?_)
    rintro rfl
    rw [Nat.cast_zero, zero_mul, sub_zero] at hk' hm'
    exact ⟨by exact_mod_cast hk', by exact_mod_cast hm'⟩
  · have hdistance : (k * num : ℤ) - m * den = -(j * w + i * u : ℕ) := by
      push_cast
      rw [hk', hm', hu, hw]
      ring
    rw [hdistance, abs_neg, Nat.abs_cast]
    refine Int.ofNat_le.2 (le_mul_add hj (Nat.add_comm u w ▸ hsum) hupper hnotupper hm ?_)
    rintro rfl
    rw [Nat.cast_zero, zero_mul, sub_zero] at hk' hm'
    exact ⟨by exact_mod_cast hk', by exact_mod_cast hm'⟩

end Gap

end Bracket

/-! ## Powers of five -/

namespace FivePower

/-- The exponent of the greatest power of two up to a power of five. -/
def floorLog (e : ℤ) : ℤ := log2Quotient (5 ^ e.toNat) (5 ^ (-e).toNat)

def num (e : ℤ) : Nat := 5 ^ e.toNat * 2 ^ (-floorLog e).toNat

def den (e : ℤ) : Nat := 5 ^ (-e).toNat * 2 ^ (floorLog e).toNat

theorem den_pos (e : ℤ) : 0 < den e := by
  unfold den
  positivity

theorem num_div_den (e : ℤ) : (num e : ℚ) / den e * 2 ^ floorLog e = 5 ^ e := by
  rw [zpow_eq_div 5 e, zpow_eq_div 2 (floorLog e), num, den]
  push_cast
  field_simp

theorem lt_succ_floorLog (e : ℤ) : (5 : ℚ) ^ e < 2 ^ (floorLog e + 1) := by
  have h := (log2Quotient_spec (by positivity : 0 < 5 ^ e.toNat) (by positivity : 0 < 5 ^ (-e).toNat)).2
  push_cast at h
  rwa [← zpow_eq_div] at h

/-- The significands of a single and of a number between two singles are below this. -/
def limit : Nat := 2 ^ 25

/-- Reading a decimal changes it by less than one part of so many, compared to the spacing of singles. -/
def parts : Nat := 2 ^ 27

def bracket (e : ℤ) : Bracket := .narrow (num e) (den e) limit 1000 ⟨1, 1, 2, 1⟩

theorem bracket_adjacent (e : ℤ) : (bracket e).Adjacent := Bracket.Adjacent.narrow rfl

/-- The multiples of a power of five that come too close to an integer. -/
def closePairs (e : ℤ) : List (Nat × Nat) :=
  if den e ≤ parts then [] else (bracket e).closePairs (num e) (den e) parts

theorem excludes_of_lt : ∀ n : ℕ, n < 84 → den ((n : ℤ) - 45) ≤ parts ∨
    (bracket ((n : ℤ) - 45)).Excludes (num ((n : ℤ) - 45)) (den ((n : ℤ) - 45)) limit parts := by
  decide +kernel

/-- All other multiples stay away from integers, or are integers. -/
theorem gap {e : ℤ} (hlow : -45 ≤ e) (hhigh : e ≤ 38) {k m : Nat} (hk : 0 < k) (hm : m < limit)
    (hclose : (k, m) ∉ closePairs e) (hne : k * num e ≠ m * den e) :
    (den e : ℤ) ≤ parts * |(k * num e : ℤ) - m * den e| := by
  by_cases hsmall : den e ≤ parts
  · -- two different integers are one apart
    have hone : 1 ≤ |(k * num e : ℤ) - m * den e| := by
      refine Int.one_le_abs (sub_ne_zero.2 ?_)
      exact_mod_cast hne
    calc (den e : ℤ) ≤ parts * 1 := by simpa using hsmall
      _ ≤ parts * |(k * num e : ℤ) - m * den e| := mul_le_mul_of_nonneg_left hone (Int.natCast_nonneg _)
  · obtain ⟨n, hn⟩ := Int.eq_ofNat_of_zero_le (by omega : 0 ≤ e + 45)
    obtain rfl : e = (n : ℤ) - 45 := by omega
    rw [closePairs, if_neg hsmall] at hclose
    exact ((excludes_of_lt n (by omega)).resolve_left hsmall).gap (bracket_adjacent _) hk hm hclose

/-- A decimal with few digits stays away from a multiple of a power of two that is not above its grid. -/
theorem le_abs_sub {e s : ℤ} (hlow : -45 ≤ e) (hhigh : e ≤ 38) (hgrid : (2 : ℚ) ^ s ≤ 10 ^ e) {k m : Nat}
    (hk : 0 < k) (hm : m < limit) (hclose : ∀ j : ℕ, s + j = floorLog e + e → (k * 2 ^ j, m) ∉ closePairs e)
    (hne : (k : ℚ) * 10 ^ e ≠ m * 2 ^ s) :
    (2 : ℚ) ^ s ≤ parts * |(k : ℚ) * 10 ^ e - m * 2 ^ s| := by
  have hten : (10 : ℚ) ^ e = 5 ^ e * 2 ^ e := by
    rw [← mul_zpow]
    norm_num
  -- multiplied by a power of two, the decimal is counted in units of `2 ^ s`
  obtain ⟨j, hj⟩ : ∃ j : ℕ, s + j = floorLog e + e := by
    have hlt : (2 : ℚ) ^ s < 2 ^ (floorLog e + 1 + e) := by
      rw [zpow_add₀ two_ne_zero]
      refine hgrid.trans_lt ?_
      rw [hten]
      exact mul_lt_mul_of_pos_right (lt_succ_floorLog e) (by positivity)
    have := (zpow_lt_zpow_iff_right₀ one_lt_two).1 hlt
    exact ⟨(floorLog e + e - s).toNat, by omega⟩
  have hvalue : (k : ℚ) * 10 ^ e = ((k * 2 ^ j : ℕ) * num e : ℚ) / den e * 2 ^ s := by
    have hpower : (2 : ℚ) ^ floorLog e * 2 ^ e = 2 ^ j * 2 ^ s := by
      rw [← zpow_add₀ two_ne_zero, ← hj, zpow_add₀ two_ne_zero, zpow_natCast, mul_comm]
    rw [hten, ← num_div_den]
    push_cast
    calc (k : ℚ) * (num e / den e * 2 ^ floorLog e * 2 ^ e)
        = k * (num e / den e) * (2 ^ floorLog e * 2 ^ e) := by ring
      _ = k * 2 ^ j * num e / den e * 2 ^ s := by
        rw [hpower]
        ring
  have hden : (0 : ℚ) < den e := by exact_mod_cast den_pos e
  have hpos : (0 : ℚ) < 2 ^ s := by positivity
  have hdistance : |(k : ℚ) * 10 ^ e - m * 2 ^ s| =
      |((k * 2 ^ j : ℕ) * num e : ℚ) - m * den e| / den e * 2 ^ s := by
    rw [hvalue, ← sub_mul, abs_mul, abs_of_pos hpos, div_sub' hden.ne', abs_div, abs_of_pos hden,
      mul_comm (den e : ℚ)]
  have hgap := gap hlow hhigh (k := k * 2 ^ j) (by positivity) hm (hclose j hj) (by
    intro heq
    refine hne ?_
    rw [hvalue]
    congr 1
    rw [div_eq_iff hden.ne']
    exact_mod_cast heq)
  have hgap' : (den e : ℚ) ≤ parts * |((k * 2 ^ j : ℕ) * num e : ℚ) - m * den e| := by
    exact_mod_cast hgap
  rw [hdistance]
  calc (2 : ℚ) ^ s = den e / den e * 2 ^ s := by field_simp
    _ ≤ parts * |((k * 2 ^ j : ℕ) * num e : ℚ) - m * den e| / den e * 2 ^ s :=
      mul_le_mul_of_nonneg_right (div_le_div_of_nonneg_right hgap' hden.le) hpos.le
    _ = parts * (|((k * 2 ^ j : ℕ) * num e : ℚ) - m * den e| / den e * 2 ^ s) := by ring

end FivePower

end Consolidation.Number
