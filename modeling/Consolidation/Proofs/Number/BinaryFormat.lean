/-
# `Proofs.Number.BinaryFormat` — what rounding to a format does

Magnitudes are looked at by their values (`value`), which are evenly spaced between powers of two (`value_succ`), and by
the middles between neighbours.  A magnitude is the one nearest to a number exactly if the number lies between the two
middles beside it, and on one of them only if the magnitude is even (`nearest_eq_iff`).  So a value is its own nearest
one, and the error of a rounding is at most a small part of the result (`Rounds.abs_sub_le`).

Formats differ in the number of fraction bits and in the range of exponents, and all that is said here is said of any.  A
magnitude is the number that its bits make; it is a place, a power of two by which values are spaced, and a significand,
which counts the spacings (`place_mul_add_significand`).  Magnitudes are ordered as their values are (`value_strictMono`).

`Rounds` is the specification of rounding by middles, and `nearest` computes with integers: it divides at the right place
and takes the nearest integer, the even one if two are as near (`divNearest_spec`).  A number rounds to one magnitude
(`Rounds.unique`), so it is enough to show that what is computed is such a one.
-/
import Mathlib.Algebra.Order.Field.Basic
import Mathlib.Algebra.Order.Field.Power
import Mathlib.Algebra.Order.Field.Rat
import Mathlib.Algebra.Ring.Parity
import Mathlib.Tactic.FieldSimp
import Mathlib.Tactic.Linarith
import Mathlib.Tactic.Ring
import Consolidation.Number.BinaryFormat

namespace Consolidation.Number

/-! ## Quotients -/

theorem divNearest_spec (num : Nat) {den : Nat} (hden : 0 < den) :
    (divNearest num den : ℚ) - 1 / 2 ≤ num / den ∧ (num : ℚ) / den ≤ divNearest num den + 1 / 2 ∧
      ((num : ℚ) / den = divNearest num den - 1 / 2 ∨ (num : ℚ) / den = divNearest num den + 1 / 2 →
        Even (divNearest num den)) := by
  have hpos : (0 : ℚ) < den := by exact_mod_cast hden
  have hsplit : (num : ℚ) = den * (num / den : ℕ) + (num % den : ℕ) := by
    exact_mod_cast (Nat.div_add_mod num den).symm
  have hlt : ((num % den : ℕ) : ℚ) < den := by exact_mod_cast Nat.mod_lt num hden
  have hnonneg : (0 : ℚ) ≤ (num % den : ℕ) := Nat.cast_nonneg _
  rw [le_div_iff₀ hpos, div_le_iff₀ hpos, div_eq_iff hpos.ne', div_eq_iff hpos.ne']
  unfold divNearest
  dsimp only
  generalize num / den = q at hsplit ⊢
  generalize num % den = r at hsplit hlt hnonneg ⊢
  split
  · next hup =>
    rw [Bool.or_eq_true, decide_eq_true_iff, Bool.and_eq_true, beq_iff_eq, beq_iff_eq] at hup
    push_cast
    rcases hup with hup | ⟨htie, hodd⟩
    · have hup : (den : ℚ) < 2 * r := by exact_mod_cast hup
      refine ⟨by linarith, by linarith, ?_⟩
      rintro (h | h) <;> linarith
    · have htie : (2 : ℚ) * r = den := by exact_mod_cast htie
      exact ⟨by linarith, by linarith, fun _ => Nat.even_add_one.2 (Nat.not_even_iff.2 hodd)⟩
  · next hdown =>
    rw [Bool.or_eq_true, decide_eq_true_iff, Bool.and_eq_true, beq_iff_eq, beq_iff_eq, not_or,
      not_and] at hdown
    obtain ⟨hle, heven⟩ := hdown
    have hle' : (2 : ℚ) * r ≤ den := by exact_mod_cast Nat.not_lt.1 hle
    refine ⟨by linarith, by linarith, ?_⟩
    rintro (h | h)
    · linarith
    · have htie : (2 : ℚ) * r = den := by linarith
      exact Nat.even_iff.2 (Nat.mod_two_ne_one.1 (heven (by exact_mod_cast htie)))

theorem pos_of_cast_mul_pos {n : Nat} {v : ℚ} (h : 0 < n * v) : 0 < n := by
  refine Nat.pos_of_ne_zero ?_
  rintro rfl
  rw [Nat.cast_zero, zero_mul] at h
  exact lt_irrefl 0 h

theorem zpow_eq_div (c : ℚ) (e : ℤ) : c ^ e = c ^ e.toNat / c ^ (-e).toNat := by
  rcases Int.le_total 0 e with h | h
  · obtain ⟨n, rfl⟩ := Int.eq_ofNat_of_zero_le h
    simp
  · obtain ⟨n, hn⟩ := Int.eq_ofNat_of_zero_le (Int.neg_nonneg_of_nonpos h)
    obtain rfl : e = -(n : ℤ) := by omega
    simp

theorem zpow_le_div_iff {c num den : Nat} (hc : 0 < c) (hden : 0 < den) (e : ℤ) :
    den * c ^ e.toNat ≤ num * c ^ (-e).toNat ↔ (c : ℚ) ^ e ≤ num / den := by
  have hc' : (0 : ℚ) < c := by exact_mod_cast hc
  have hden' : (0 : ℚ) < den := by exact_mod_cast hden
  rw [zpow_eq_div, div_le_div_iff₀ (by positivity) hden', ← Nat.cast_le (α := ℚ)]
  push_cast
  rw [mul_comm]

theorem div_scaled (c num den : Nat) (e : ℤ) :
    ((num * c ^ (-e).toNat : ℕ) : ℚ) / (den * c ^ e.toNat : ℕ) = num / den * (c : ℚ) ^ (-e) := by
  rw [zpow_eq_div _ (-e), neg_neg]
  push_cast
  rw [div_mul_div_comm]

theorem log2Quotient_spec {num den : Nat} (hnum : 0 < num) (hden : 0 < den) :
    (2 : ℚ) ^ log2Quotient num den ≤ num / den ∧ (num : ℚ) / den < 2 ^ (log2Quotient num den + 1) := by
  have hnum' : (0 : ℚ) < num := by exact_mod_cast hnum
  have hden' : (0 : ℚ) < den := by exact_mod_cast hden
  have hnumle : (2 : ℚ) ^ num.log2 ≤ num := by exact_mod_cast Nat.log2_self_le hnum.ne'
  have hnumlt : (num : ℚ) < 2 ^ (num.log2 + 1) := by exact_mod_cast Nat.lt_log2_self
  have hdenle : (2 : ℚ) ^ den.log2 ≤ den := by exact_mod_cast Nat.log2_self_le hden.ne'
  have hdenlt : (den : ℚ) < 2 ^ (den.log2 + 1) := by exact_mod_cast Nat.lt_log2_self
  have hlow : (2 : ℚ) ^ ((num.log2 : ℤ) - den.log2 - 1) ≤ num / den := by
    have hexp : (num.log2 : ℤ) - den.log2 - 1 = (num.log2 : ℤ) - (den.log2 + 1 : ℕ) := by
      push_cast
      ring
    rw [hexp, zpow_sub₀ two_ne_zero, zpow_natCast, zpow_natCast]
    exact div_le_div₀ hnum'.le hnumle hden' hdenlt.le
  have hhigh : (num : ℚ) / den < 2 ^ ((num.log2 : ℤ) - den.log2 + 1) := by
    have hexp : (num.log2 : ℤ) - den.log2 + 1 = ((num.log2 + 1 : ℕ) : ℤ) - den.log2 := by
      push_cast
      ring
    rw [hexp, zpow_sub₀ two_ne_zero, zpow_natCast, zpow_natCast]
    exact div_lt_div₀ hnumlt hdenle (by positivity) (by positivity)
  unfold log2Quotient
  simp only [Nat.pow_eq]
  split
  · next h => exact ⟨by simpa using (zpow_le_div_iff two_pos hden _).1 h, hhigh⟩
  · next h =>
    refine ⟨hlow, ?_⟩
    rw [sub_add_cancel, ← not_le]
    intro hle
    exact h ((zpow_le_div_iff two_pos hden _).2 (by simpa using hle))

namespace BinaryFormat

/-! ## Values -/

variable (f : BinaryFormat)

/-- The powers of two by which the values of a magnitude are spaced, counted from the least. -/
def place (a : Nat) : Nat := a / 2 ^ f.fractionBits - 1

/-- How many spacings a value is from zero. -/
def significand (a : Nat) : Nat := a - f.place a * 2 ^ f.fractionBits

/-- How far it is from a value to the next. -/
def spacing (a : Nat) : ℚ := 2 ^ ((f.place a : ℤ) - f.leastExponent)

/-- The number that a magnitude stands for. -/
def value (a : Nat) : ℚ := f.significand a * f.spacing a

/-- The number between a value and the next. -/
def middle (a : Nat) : ℚ := f.value a + f.spacing a / 2

variable {f}

theorem spacing_pos (a : Nat) : 0 < f.spacing a := by
  unfold spacing
  positivity

theorem value_nonneg (a : Nat) : 0 ≤ f.value a :=
  mul_nonneg (Nat.cast_nonneg _) (spacing_pos a).le

theorem place_add {j n : Nat} (hn : n < 2 * 2 ^ f.fractionBits) (h : 2 ^ f.fractionBits ≤ n ∨ j = 0) :
    f.place (j * 2 ^ f.fractionBits + n) = j := by
  have hpos : 0 < 2 ^ f.fractionBits := by positivity
  have hlt : n / 2 ^ f.fractionBits < 2 := (Nat.div_lt_iff_lt_mul hpos).2 hn
  rw [place, Nat.add_comm, Nat.add_mul_div_right _ _ hpos]
  rcases h with h | rfl
  · have : 1 ≤ n / 2 ^ f.fractionBits := (Nat.le_div_iff_mul_le hpos).2 (by simpa using h)
    omega
  · omega

theorem place_mul_add_significand (a : Nat) :
    f.place a * 2 ^ f.fractionBits + f.significand a = a ∧
      f.significand a < 2 * 2 ^ f.fractionBits ∧
      (2 ^ f.fractionBits ≤ f.significand a ∨ f.place a = 0) := by
  have hsplit := Nat.div_add_mod a (2 ^ f.fractionBits)
  have hlt := Nat.mod_lt a (by positivity : 0 < 2 ^ f.fractionBits)
  unfold significand place
  generalize 2 ^ f.fractionBits = p at *
  rcases hfield : a / p with _ | field
  · rw [hfield, Nat.mul_zero] at hsplit
    rw [Nat.zero_sub, Nat.zero_mul]
    omega
  · rw [hfield, Nat.mul_comm, Nat.add_mul, Nat.one_mul] at hsplit
    rw [Nat.add_sub_cancel]
    omega

theorem significand_lt (a : Nat) : f.significand a < 2 * 2 ^ f.fractionBits :=
  (f.place_mul_add_significand a).2.1

theorem value_add {j n : Nat} (hn : n ≤ 2 * 2 ^ f.fractionBits) (h : 2 ^ f.fractionBits ≤ n ∨ j = 0) :
    f.value (j * 2 ^ f.fractionBits + n) = n * 2 ^ ((j : ℤ) - f.leastExponent) := by
  rcases hn.lt_or_eq with hlt | rfl
  · rw [value, spacing, significand, place_add hlt h, Nat.add_sub_cancel_left]
  · -- the next place starts here
    have hplace : f.place (j * 2 ^ f.fractionBits + 2 * 2 ^ f.fractionBits) = j + 1 := by
      have heq : j * 2 ^ f.fractionBits + 2 * 2 ^ f.fractionBits =
          (j + 1) * 2 ^ f.fractionBits + 2 ^ f.fractionBits := by ring
      rw [heq]
      exact place_add (by have : 0 < 2 ^ f.fractionBits := by positivity
                          omega) (.inl (Nat.le_refl _))
    have hsignificand : f.significand (j * 2 ^ f.fractionBits + 2 * 2 ^ f.fractionBits) =
        2 ^ f.fractionBits := by
      rw [significand, hplace, Nat.sub_eq_iff_eq_add (by nlinarith [Nat.zero_le (2 ^ f.fractionBits)])]
      ring
    rw [value, spacing, hplace, hsignificand]
    push_cast
    rw [show (j : ℤ) + 1 - f.leastExponent = (j - f.leastExponent) + 1 by ring,
      zpow_add_one₀ two_ne_zero]
    ring

theorem value_succ (a : Nat) : f.value (a + 1) = f.value a + f.spacing a := by
  obtain ⟨heq, hlt, hplace⟩ := f.place_mul_add_significand a
  have hnext := value_add (f := f) (j := f.place a) (n := f.significand a + 1) hlt
    (hplace.imp_left fun h => h.trans (Nat.le_succ _))
  rw [← Nat.add_assoc, heq] at hnext
  rw [hnext, value, spacing]
  push_cast
  ring

theorem value_strictMono : StrictMono f.value :=
  strictMono_nat_of_lt_succ fun a => by
    rw [value_succ]
    exact lt_add_of_pos_right _ (spacing_pos a)

theorem place_mono {a b : Nat} (h : a ≤ b) : f.place a ≤ f.place b :=
  Nat.sub_le_sub_right (Nat.div_le_div_right h) 1

theorem spacing_mono {a b : Nat} (h : a ≤ b) : f.spacing a ≤ f.spacing b := by
  refine zpow_le_zpow_right₀ one_le_two ?_
  have := f.place_mono h
  omega

theorem spacing_succ_le (a : Nat) : f.spacing (a + 1) ≤ 2 * f.spacing a := by
  have hplace : f.place (a + 1) ≤ f.place a + 1 := by
    unfold place
    rw [Nat.succ_div]
    split <;> omega
  rw [spacing, spacing, ← zpow_one_add₀ two_ne_zero]
  refine zpow_le_zpow_right₀ one_le_two ?_
  omega

theorem value_lt_middle (a : Nat) : f.value a < f.middle a :=
  lt_add_of_pos_right _ (half_pos (spacing_pos a))

theorem middle_lt_value (a : Nat) : f.middle a < f.value (a + 1) := by
  rw [middle, value_succ]
  linarith [half_lt_self (f.spacing_pos a)]

theorem middle_strictMono : StrictMono f.middle :=
  strictMono_nat_of_lt_succ fun a => (middle_lt_value a).trans (value_lt_middle (a + 1))

theorem value_zero : f.value 0 = 0 := by
  simp [value, significand]

theorem quotient_eq (a : Nat) :
    ((f.quotient a).1 : ℚ) / (f.quotient a).2 = f.value a ∧ 0 < (f.quotient a).2 := by
  have hparts : f.parts a = (f.significand a, (f.place a : ℤ) - f.leastExponent) := by
    obtain ⟨heq, -, -⟩ := f.place_mul_add_significand a
    have hsplit := Nat.div_add_mod a (2 ^ f.fractionBits)
    unfold parts
    simp only [Nat.pow_eq]
    rcases hfield : a / 2 ^ f.fractionBits with _ | field
    · have hplace : f.place a = 0 := by rw [place, hfield]
      rw [hplace] at heq
      rw [hfield] at hsplit
      simp only [Nat.mul_zero, Nat.zero_mul, Nat.zero_add] at heq hsplit
      rw [if_pos rfl, hsplit, heq, hplace]
      simp
    · have hplace : f.place a = field := by rw [place, hfield, Nat.add_sub_cancel]
      rw [hplace] at heq
      rw [hfield, Nat.mul_comm, Nat.add_mul, Nat.one_mul] at hsplit
      rw [if_neg (Nat.succ_ne_zero _), hplace, Prod.mk.injEq]
      constructor
      · omega
      · push_cast
        ring
  rw [quotient, hparts]
  simp only [Nat.pow_eq]
  refine ⟨?_, by positivity⟩
  rw [value, spacing, zpow_eq_div]
  push_cast
  rw [mul_div_assoc]

/-! ## Rounding -/

/-- A number between the middles beside a magnitude, and on a middle only if the magnitude is even. -/
structure Rounds (f : BinaryFormat) (a : Nat) (v : ℚ) : Prop where
  le_middle : v ≤ f.middle a
  even : v = f.middle a → Even a
  middle_le : ∀ b, a = b + 1 → f.middle b ≤ v
  even_of_below : ∀ b, a = b + 1 → v = f.middle b → Even a

theorem rounds_value (a : Nat) : f.Rounds a (f.value a) where
  le_middle := (value_lt_middle a).le
  even := fun h => absurd h (value_lt_middle a).ne
  middle_le := by
    rintro b rfl
    exact (middle_lt_value b).le
  even_of_below := by
    rintro b rfl h
    exact absurd h (middle_lt_value b).ne'

/-- A number rounds to a positive magnitude if it is less than a quarter of a spacing away. -/
theorem rounds_of_close {a : Nat} {v : ℚ} (ha : 0 < a) (h : 4 * |v - f.value a| < f.spacing a) :
    f.Rounds a v := by
  have hbelow := neg_abs_le (v - f.value a)
  have habove := le_abs_self (v - f.value a)
  have hlt : v < f.middle a := by
    rw [middle]
    linarith
  have hgt : ∀ b, a = b + 1 → f.middle b < v := by
    rintro b rfl
    have hspacing := f.spacing_succ_le b
    have hnext := f.value_succ b
    rw [middle]
    linarith
  exact ⟨hlt.le, fun h => absurd h hlt.ne, fun b hb => (hgt b hb).le,
    fun b hb h => absurd h (hgt b hb).ne'⟩

theorem Rounds.not_lt {a b : Nat} {v : ℚ} (ha : f.Rounds a v) (hb : f.Rounds b v) : ¬a < b := by
  intro hlt
  obtain ⟨c, rfl⟩ := Nat.exists_eq_add_of_lt hlt
  have hmiddle : f.middle a ≤ f.middle (a + c) := middle_strictMono.monotone (Nat.le_add_right a c)
  have hle := hb.middle_le (a + c) rfl
  have heq : v = f.middle a := le_antisymm ha.le_middle (hmiddle.trans hle)
  have heq' : v = f.middle (a + c) := le_antisymm (ha.le_middle.trans hmiddle) hle
  -- two neighbours are not both even
  obtain rfl : c = 0 := by
    have := middle_strictMono.injective (heq.symm.trans heq')
    omega
  exact Nat.even_add_one.1 (hb.even_of_below a rfl heq) (ha.even heq)

theorem Rounds.unique {a b : Nat} {v : ℚ} (ha : f.Rounds a v) (hb : f.Rounds b v) : a = b :=
  Nat.le_antisymm (Nat.not_lt.1 (hb.not_lt ha)) (Nat.not_lt.1 (ha.not_lt hb))

/-- A number rounds to `n` spacings of a place if it is at most half a spacing away, and not below the numbers of this
place. -/
theorem rounds_of_counted (hbits : 0 < f.fractionBits) {j n : Nat} {v : ℚ}
    (hn : n ≤ 2 * 2 ^ f.fractionBits) (hplace : 2 ^ f.fractionBits ≤ n ∨ j = 0)
    (hbelow : (n - 1 / 2) * (2 : ℚ) ^ ((j : ℤ) - f.leastExponent) ≤ v)
    (habove : v ≤ (n + 1 / 2) * (2 : ℚ) ^ ((j : ℤ) - f.leastExponent))
    (hhalf : v = (n - 1 / 2) * (2 : ℚ) ^ ((j : ℤ) - f.leastExponent) ∨
      v = (n + 1 / 2) * (2 : ℚ) ^ ((j : ℤ) - f.leastExponent) → Even n)
    (hfirst : j = 0 ∨ (2 ^ f.fractionBits : ℕ) * (2 : ℚ) ^ ((j : ℤ) - f.leastExponent) ≤ v) :
    f.Rounds (j * 2 ^ f.fractionBits + n) v := by
  have hvalue := value_add hn hplace
  have heven : Even n → Even (j * 2 ^ f.fractionBits + n) := fun h =>
    ((even_two.pow_of_ne_zero hbits.ne').mul_left j).add h
  have hspacing : (2 : ℚ) ^ ((j : ℤ) - f.leastExponent) ≤
      f.spacing (j * 2 ^ f.fractionBits + n) := by
    refine zpow_le_zpow_right₀ one_le_two (sub_le_sub_right (Nat.cast_le.2 ?_) _)
    rcases hplace with h | rfl
    · calc j = f.place (j * 2 ^ f.fractionBits + 2 ^ f.fractionBits) := by
            refine (place_add ?_ (.inl (Nat.le_refl _))).symm
            have : 0 < 2 ^ f.fractionBits := by positivity
            omega
        _ ≤ f.place (j * 2 ^ f.fractionBits + n) := place_mono (Nat.add_le_add_left h _)
    · exact Nat.zero_le _
  generalize hunit : (2 : ℚ) ^ ((j : ℤ) - f.leastExponent) = unit at *
  -- below the magnitude the spacing is the same, or the number does not lie there
  have hlower : ∀ b, j * 2 ^ f.fractionBits + n = b + 1 →
      f.middle b = (n - 1 / 2) * unit ∨ f.middle b < v := by
    intro b hb
    have hnext := value_succ (f := f) b
    rw [← hb, hvalue] at hnext
    by_cases hinner : 2 ^ f.fractionBits < n ∨ j = 0
    · have hspacing : f.spacing b = unit := by
        have hb' : b = j * 2 ^ f.fractionBits + (n - 1) := by
          rcases hinner with h | rfl <;> omega
        rw [← hunit, spacing, hb', place_add (by omega) (hinner.imp_left Nat.le_sub_one_of_lt)]
      refine .inl ?_
      rw [middle]
      linarith
    · rw [not_or] at hinner
      have hfirst := hfirst.resolve_left hinner.2
      have hn : n = 2 ^ f.fractionBits := by omega
      rw [← hn] at hfirst
      refine .inr (lt_of_lt_of_le ?_ hfirst)
      rw [← hvalue, hb]
      exact middle_lt_value b
  constructor
  case le_middle =>
    rw [middle, hvalue]
    linarith
  case even =>
    intro h
    refine heven (hhalf (.inr (le_antisymm habove ?_)))
    rw [h, middle, hvalue]
    linarith
  case middle_le =>
    intro b hb
    rcases hlower b hb with h | h
    · rw [h]
      exact hbelow
    · exact h.le
  case even_of_below =>
    intro b hb hv
    rcases hlower b hb with h | h
    · exact heven (hhalf (.inl (hv.trans h)))
    · exact absurd hv h.ne'

/-- The nearest magnitude is the one to which the quotient rounds, infinity at most. -/
theorem exists_rounds (hbits : 0 < f.fractionBits) {num den : Nat} (hnum : 0 < num) (hden : 0 < den) :
    ∃ a, f.Rounds a (num / den) ∧ f.nearest num den = min a f.infinity := by
  obtain ⟨hlow, hhigh⟩ := log2Quotient_spec hnum hden
  generalize hlead : log2Quotient num den = lead at hlow hhigh
  -- numbers are counted in the spacing of their place
  obtain ⟨j, hj⟩ : ∃ j : ℕ, max (lead - f.fractionBits) (-(f.leastExponent : ℤ)) =
      (j : ℤ) - f.leastExponent := by
    refine ⟨(max (lead - f.fractionBits) (-(f.leastExponent : ℤ)) + f.leastExponent).toNat, ?_⟩
    omega
  have hscaled := div_scaled 2 num den ((j : ℤ) - f.leastExponent)
  push_cast at hscaled
  set unit : ℚ := 2 ^ ((j : ℤ) - f.leastExponent) with hunit
  have hunitpos : 0 < unit := by positivity
  have hdenpos : 0 < den * 2 ^ ((j : ℤ) - f.leastExponent).toNat := by positivity
  obtain ⟨hbelow, habove, htie⟩ :=
    divNearest_spec (num * 2 ^ (-((j : ℤ) - f.leastExponent)).toNat) hdenpos
  push_cast at hbelow habove htie
  rw [hscaled, zpow_neg, ← hunit] at hbelow habove htie
  have hnearest : f.nearest num den = min (j * 2 ^ f.fractionBits +
      divNearest (num * 2 ^ (-((j : ℤ) - f.leastExponent)).toNat)
        (den * 2 ^ ((j : ℤ) - f.leastExponent).toNat)) f.infinity := by
    unfold nearest
    rw [if_neg hnum.ne', hlead]
    dsimp only
    rw [hj]
    simp only [Nat.pow_eq, sub_add_cancel, Int.toNat_natCast]
  generalize divNearest (num * 2 ^ (-((j : ℤ) - f.leastExponent)).toNat)
    (den * 2 ^ ((j : ℤ) - f.leastExponent).toNat) = n at *
  generalize hv : (num : ℚ) / den = v at *
  have hvu : v * unit⁻¹ * unit = v := by field_simp
  have hbelow' : (n - 1 / 2) * unit ≤ v := hvu ▸ mul_le_mul_of_nonneg_right hbelow hunitpos.le
  have habove' : v ≤ (n + 1 / 2) * unit := hvu ▸ mul_le_mul_of_nonneg_right habove hunitpos.le
  have hhalf : v = (n - 1 / 2) * unit ∨ v = (n + 1 / 2) * unit → Even n := by
    intro h
    refine htie (h.imp ?_ ?_) <;>
    · rintro rfl
      field_simp
  have hn : n ≤ 2 * 2 ^ f.fractionBits := by
    have hle : (2 : ℚ) ^ (lead + 1) ≤ (2 * 2 ^ f.fractionBits) * unit := by
      rw [hunit, ← pow_succ', ← zpow_natCast, ← zpow_add₀ two_ne_zero]
      refine zpow_le_zpow_right₀ one_le_two ?_
      push_cast
      omega
    have hlt : ((n : ℚ) - 1 / 2) < 2 * 2 ^ f.fractionBits :=
      lt_of_mul_lt_mul_right ((hbelow'.trans_lt hhigh).trans_le hle) hunitpos.le
    have hlt' : (n : ℚ) < (2 * 2 ^ f.fractionBits + 1 : ℕ) := by
      push_cast
      linarith
    exact Nat.lt_succ_iff.1 (by exact_mod_cast hlt')
  have hfirst : j = 0 ∨ 2 ^ f.fractionBits * unit ≤ v := by
    rcases Nat.eq_zero_or_pos j with h | h
    · exact .inl h
    · refine .inr (le_trans (le_of_eq ?_) hlow)
      rw [hunit, ← zpow_natCast, ← zpow_add₀ two_ne_zero]
      congr 1
      omega
  have hplace : 2 ^ f.fractionBits ≤ n ∨ j = 0 := by
    rcases hfirst with h | h
    · exact .inr h
    · have hle : (2 : ℚ) ^ f.fractionBits ≤ n + 1 / 2 :=
        le_of_mul_le_mul_right (h.trans habove') hunitpos
      have hlt : ((2 ^ f.fractionBits : ℕ) : ℚ) < (n + 1 : ℕ) := by
        push_cast
        linarith
      exact .inl (Nat.lt_succ_iff.1 (by exact_mod_cast hlt))
  refine ⟨_, rounds_of_counted hbits hn hplace hbelow' habove' hhalf ?_, hnearest⟩
  exact hfirst.imp_right fun h => by simpa using h

theorem nearest_eq_iff (hbits : 0 < f.fractionBits) {num den a : Nat} (hden : 0 < den)
    (ha : a < f.infinity) : f.nearest num den = a ↔ f.Rounds a (num / den) := by
  rcases Nat.eq_zero_or_pos num with rfl | hnum
  · have hzero : f.Rounds 0 ((0 : ℕ) / den) := by
      have h := rounds_value (f := f) 0
      rwa [value_zero, ← zero_div (den : ℚ), ← Nat.cast_zero] at h
    have hnearest : f.nearest 0 den = 0 := if_pos rfl
    rw [hnearest]
    exact ⟨fun h => h ▸ hzero, hzero.unique⟩
  · obtain ⟨b, hb, hnearest⟩ := exists_rounds hbits hnum hden
    constructor
    · intro h
      obtain rfl : b = a := by omega
      exact hb
    · intro h
      rw [hnearest, hb.unique h, Nat.min_eq_left ha.le]

/-! ## Exact values -/

theorem exists_value_eq {n : Nat} (hn : n < 2 * 2 ^ f.fractionBits) (j : Nat) :
    ∃ a, f.value a = n * 2 ^ ((j : ℤ) - f.leastExponent) := by
  induction j generalizing n with
  | zero => exact ⟨_, value_add hn.le (.inr rfl)⟩
  | succ j ih =>
    by_cases h : 2 ^ f.fractionBits ≤ n
    · exact ⟨_, value_add hn.le (.inl h)⟩
    · -- there is room for one more bit
      obtain ⟨a, ha⟩ := ih (n := 2 * n) (by omega)
      refine ⟨a, ha.trans ?_⟩
      push_cast
      rw [add_sub_right_comm, zpow_add_one₀ two_ne_zero]
      ring

variable {a b : Nat} {v : ℚ}

/-- A number with few enough bits is not changed by rounding. -/
theorem Rounds.value_eq (h : f.Rounds a v) {n j : Nat} (hn : n < 2 * 2 ^ f.fractionBits)
    (hv : v = n * 2 ^ ((j : ℤ) - f.leastExponent)) : f.value a = v := by
  obtain ⟨c, hc⟩ := exists_value_eq hn j
  rw [← hv] at hc
  rw [h.unique (hc ▸ rounds_value c), hc]

/-! ## Errors -/

theorem Rounds.le_of_lt_middle (h : f.Rounds a v) (hb : v < f.middle b) : a ≤ b := by
  by_contra hlt
  obtain ⟨c, rfl⟩ := Nat.exists_eq_add_of_lt (Nat.not_le.1 hlt)
  have hmiddle : f.middle b ≤ f.middle (b + c) := middle_strictMono.monotone (Nat.le_add_right b c)
  exact absurd (hmiddle.trans (h.middle_le (b + c) rfl)) hb.not_ge

theorem Rounds.le_of_value_le (h : f.Rounds a v) (hb : f.value b ≤ v) : b ≤ a := by
  by_contra hlt
  have hnext : f.value (a + 1) ≤ f.value b := value_strictMono.monotone (Nat.not_le.1 hlt)
  exact absurd (h.le_middle.trans_lt ((middle_lt_value a).trans_le hnext)) hb.not_gt

theorem spacing_le_value (h : 2 ^ f.fractionBits ≤ a) :
    2 ^ f.fractionBits * f.spacing a ≤ f.value a := by
  obtain ⟨heq, -, hplace⟩ := f.place_mul_add_significand a
  have hsignificand : 2 ^ f.fractionBits ≤ f.significand a := by
    rcases hplace with hplace | hplace
    · exact hplace
    · rw [hplace, Nat.zero_mul, Nat.zero_add] at heq
      rwa [heq]
  exact mul_le_mul_of_nonneg_right (by exact_mod_cast hsignificand) (spacing_pos a).le

theorem Rounds.abs_sub_le_spacing (h : f.Rounds a v) (ha : 0 < a) :
    |v - f.value a| ≤ f.spacing a / 2 := by
  obtain ⟨b, rfl⟩ := Nat.exists_eq_add_of_lt ha
  rw [Nat.zero_add] at *
  have habove := h.le_middle
  have hbelow := h.middle_le b rfl
  have hspacing := spacing_mono (f := f) (Nat.le_succ b)
  rw [middle] at habove hbelow
  rw [abs_le]
  constructor
  · rw [value_succ]
    linarith
  · linarith

/-- Rounding a number that is not too small changes it by a small part of the result. -/
theorem Rounds.abs_sub_le (h : f.Rounds a v) (ha : 2 ^ f.fractionBits ≤ a) :
    |v - f.value a| * (2 * 2 ^ f.fractionBits) ≤ f.value a := by
  have hpos : 0 < 2 ^ f.fractionBits := by positivity
  have hdistance := h.abs_sub_le_spacing (hpos.trans_le ha)
  have hvalue := spacing_le_value ha
  calc |v - f.value a| * (2 * 2 ^ f.fractionBits)
      ≤ f.spacing a / 2 * (2 * 2 ^ f.fractionBits) :=
        mul_le_mul_of_nonneg_right hdistance (by positivity)
    _ = 2 ^ f.fractionBits * f.spacing a := by ring
    _ ≤ f.value a := hvalue

end BinaryFormat

end Consolidation.Number
