/-
# `Proofs.Number.Shortest` — the shortest decimal is found and reads back

The search for the shortest decimal of a finite magnitude starts at the first digit of its value (`leadExponent_eq`), and
ends on the ninth grid at the latest, since the steps of this one are shorter than half a spacing (`shortestFrom_spec`).
What is kept of a decimal that was found is `Found`: it rounds to the magnitude, and where the grid is fine it is the
nearest one of its grid.

The search tries the grids of one digit, two digits and so on, and on each of them the decimal that is nearest to the
value.  If that one does not round to the magnitude the search goes on; where the steps of a grid are shorter than half a
spacing, the nearest one does (`rounds_nearest`).  So it ends, and zeros at the end are dropped from what was found
(`shortest_spec`).
-/
import Mathlib.Algebra.Order.Archimedean.Basic
import Consolidation.Number.Decimal
import Consolidation.Proofs.Number.BinaryFormat

namespace Consolidation.Number

open BinaryFormat

namespace Decimal

/-! ## The first digit -/

/-- The count from the guess ends at the first digit if it has enough steps. -/
theorem leadExponent_eq {num den : Nat} (hden : 0 < den) {lead : ℤ} (hlow : (10 : ℚ) ^ lead ≤ num / den)
    (hhigh : (num : ℚ) / den < 10 ^ (lead + 1)) {fuel : Nat} {guess : ℤ}
    (hfuel : (guess - lead).natAbs < fuel) : leadExponent num den fuel guess = lead := by
  have hcompare : ∀ k : ℤ, den * Nat.pow 10 k.toNat ≤ num * Nat.pow 10 (-k).toNat ↔ k ≤ lead := by
    intro k
    rw [Nat.pow_eq, Nat.pow_eq, zpow_le_div_iff (by decide) hden, Nat.cast_ofNat]
    constructor
    · intro h
      exact Int.lt_add_one_iff.1 ((zpow_lt_zpow_iff_right₀ (by norm_num)).1 (h.trans_lt hhigh))
    · intro h
      exact (zpow_le_zpow_right₀ (by norm_num) h).trans hlow
  induction fuel generalizing guess with
  | zero => exact absurd hfuel (Nat.not_lt_zero _)
  | succ fuel ih =>
    unfold leadExponent
    simp only [hcompare]
    split
    · exact ih (by omega)
    · split
      · omega
      · exact ih (by omega)

/-! ## One grid -/

section Grid

variable {a num den k : Nat} {unit : ℤ}

theorem readsBack_iff (ha : a < single.infinity) :
    (single.nearest (k * Nat.pow 10 unit.toNat) (Nat.pow 10 (-unit).toNat) == a) = true ↔
      single.Rounds a (k * 10 ^ unit) := by
  have hvalue : ((k * Nat.pow 10 unit.toNat : ℕ) : ℚ) / (Nat.pow 10 (-unit).toNat : ℕ) = k * 10 ^ unit := by
    rw [zpow_eq_div, Nat.pow_eq, Nat.pow_eq]
    push_cast
    rw [mul_div_assoc]
  rw [beq_iff_eq, nearest_eq_iff (by decide) (by rw [Nat.pow_eq]; positivity) ha, hvalue]

theorem abs_sub_divNearest_le (num : Nat) {den : Nat} (hden : 0 < den) (unit : ℤ) :
    |(num : ℚ) / den - divNearest (num * Nat.pow 10 (-unit).toNat) (den * Nat.pow 10 unit.toNat) * 10 ^ unit|
      ≤ 10 ^ unit / 2 := by
  simp only [Nat.pow_eq]
  have hscaled := div_scaled 10 num den unit
  rw [Nat.cast_ofNat, zpow_neg] at hscaled
  obtain ⟨hbelow, habove, -⟩ := divNearest_spec (num * 10 ^ (-unit).toNat)
    (by positivity : 0 < den * 10 ^ unit.toNat)
  rw [hscaled] at hbelow habove
  generalize (num : ℚ) / den = v at *
  generalize divNearest (num * 10 ^ (-unit).toNat) (den * 10 ^ unit.toNat) = near at *
  have hstep : (0 : ℚ) < 10 ^ unit := by positivity
  have hback : v * (10 ^ unit)⁻¹ * 10 ^ unit = v := by field_simp
  have hbelow' := mul_le_mul_of_nonneg_right hbelow hstep.le
  have habove' := mul_le_mul_of_nonneg_right habove hstep.le
  rw [hback] at hbelow' habove'
  rw [abs_le]
  constructor <;> linarith

structure Found (a k : Nat) (unit : ℤ) : Prop where
  rounds : single.Rounds a (k * 10 ^ unit)
  near : 2 * 10 ^ unit < single.spacing a → |single.value a - k * 10 ^ unit| ≤ 10 ^ unit / 2

theorem rounds_nearest (h0 : 0 < a) (hden : 0 < den) (hvalue : (num : ℚ) / den = single.value a)
    (hfine : 2 * 10 ^ unit < single.spacing a) :
    single.Rounds a
      (divNearest (num * Nat.pow 10 (-unit).toNat) (den * Nat.pow 10 unit.toNat) * 10 ^ unit) := by
  refine rounds_of_close h0 ?_
  have hnear := abs_sub_divNearest_le num hden unit
  rw [hvalue, abs_sub_comm] at hnear
  linarith

theorem Found.of_onGrid? (h0 : 0 < a) (ha : a < single.infinity) (hden : 0 < den)
    (hvalue : (num : ℚ) / den = single.value a) (h : onGrid? a num den unit = some k) :
    Found a k unit := by
  have hnear := abs_sub_divNearest_le num hden unit
  have hfine : 2 * 10 ^ unit < single.spacing a → _ := rounds_nearest h0 hden hvalue
  rw [hvalue] at hnear
  unfold onGrid? at h
  extract_lets _ _ _ _ nearest far at h
  split at h
  · next hrounds =>
    obtain rfl := Option.some.inj h
    exact ⟨(readsBack_iff ha).1 hrounds, fun _ => hnear⟩
  · next hnot =>
    -- the other neighbour is tried only on a coarse grid
    split at h
    · next hrounds =>
      obtain rfl := Option.some.inj h
      exact ⟨(readsBack_iff ha).1 hrounds, fun h => absurd ((readsBack_iff ha).2 (hfine h)) hnot⟩
    · cases h

theorem exists_onGrid? (h0 : 0 < a) (ha : a < single.infinity) (hden : 0 < den)
    (hvalue : (num : ℚ) / den = single.value a) (hfine : 2 * 10 ^ unit < single.spacing a) :
    ∃ k, onGrid? a num den unit = some k := by
  exact ⟨_, if_pos ((readsBack_iff ha).2 (rounds_nearest h0 hden hvalue hfine))⟩

end Grid

/-! ## The search -/

section Search

variable {a num den : Nat} {lead : ℤ}

theorem two_mul_step_lt_spacing (hlow : (10 : ℚ) ^ lead ≤ single.value a) :
    2 * 10 ^ (lead - 8) < single.spacing a := by
  have hsignificand : (single.significand a : ℚ) < 2 * 2 ^ 23 := by
    exact_mod_cast significand_lt (f := single) a
  have hvalue : single.value a < 2 * 2 ^ 23 * single.spacing a :=
    mul_lt_mul_of_pos_right hsignificand (spacing_pos a)
  have hstep : (10 : ℚ) ^ (lead - 8) = 10 ^ lead / 10 ^ 8 := by
    rw [zpow_sub₀ (by norm_num)]
    norm_cast
  have hspacing := spacing_pos (f := single) a
  rw [hstep]
  linarith

/-- From any of the nine grids on the search finds a decimal. -/
theorem shortestFrom_spec (h0 : 0 < a) (ha : a < single.infinity) (hden : 0 < den)
    (hvalue : (num : ℚ) / den = single.value a) (hlow : (10 : ℚ) ^ lead ≤ single.value a)
    {fuel count : Nat} (hcount : 1 ≤ count) (hfuel : fuel + count = 10) (hlast : 1 ≤ fuel) :
    ∃ k unit, shortestFrom a num den lead fuel count = some (k, unit) ∧ Found a k unit ∧
      lead - 8 ≤ unit ∧ unit ≤ lead := by
  induction fuel generalizing count with
  | zero => exact absurd hlast (by decide)
  | succ fuel ih =>
    unfold shortestFrom
    dsimp only
    split
    · next k hk => exact ⟨k, _, rfl, .of_onGrid? h0 ha hden hvalue hk, by omega, by omega⟩
    · next hnone =>
      refine ih (by omega) (by omega) ?_
      -- the last grid is not passed over
      by_contra hlt
      have hunit : lead + 1 - (count : ℤ) = lead - 8 := by omega
      obtain ⟨k, hk⟩ := exists_onGrid? h0 ha hden hvalue (hunit ▸ two_mul_step_lt_spacing hlow)
      rw [hnone] at hk
      cases hk

end Search

/-! ## Zeros at the end -/

theorem dropZeros_spec (fuel digits : Nat) (exponent : ℤ) :
    ∃ n ≤ fuel, (dropZeros fuel digits exponent).2 = exponent + n ∧
      (dropZeros fuel digits exponent).1 * 10 ^ n = digits := by
  induction fuel generalizing digits exponent with
  | zero => exact ⟨0, Nat.le_refl 0, by simp [dropZeros], by simp [dropZeros]⟩
  | succ fuel ih =>
    unfold dropZeros
    split
    · next hzero =>
      obtain ⟨n, hn, hexponent, hdigits⟩ := ih (digits / 10) (exponent + 1)
      rw [Bool.and_eq_true, beq_iff_eq] at hzero
      refine ⟨n + 1, by omega, by rw [hexponent]; push_cast; ring, ?_⟩
      rw [pow_succ, ← Nat.mul_assoc, hdigits]
      omega
    · exact ⟨0, Nat.zero_le _, by simp, by simp⟩

/-! ## The shortest decimal -/

section Shortest

variable {a : Nat}

theorem value_bounds (h0 : 0 < a) (ha : a < single.infinity) :
    (2 : ℚ) ^ (-149 : ℤ) ≤ single.value a ∧ single.value a < 2 ^ (128 : ℤ) := by
  have hleast : single.value 1 = 2 ^ (-149 : ℤ) := by
    have h := value_add (f := single) (j := 0) (n := 1) (by decide) (.inr rfl)
    rw [Nat.zero_mul, Nat.zero_add] at h
    rw [h]
    norm_num [single]
  have hinfinity : single.value single.infinity = 2 ^ (128 : ℤ) := by
    have h := value_add (f := single) (j := 254) (n := 2 ^ 23) (by decide) (.inl (by decide))
    rw [show 254 * 2 ^ single.fractionBits + 2 ^ 23 = single.infinity from rfl] at h
    rw [h]
    norm_num [single]
  constructor
  · rw [← hleast]
    exact value_strictMono.monotone h0
  · rw [← hinfinity]
    exact value_strictMono ha

/-- The power of ten at the first digit of a value, and the guess from which it is looked for. -/
theorem exists_lead (h0 : 0 < a) (ha : a < single.infinity) {l : ℤ}
    (hlow : (2 : ℚ) ^ l ≤ single.value a) (hhigh : single.value a < 2 ^ (l + 1)) :
    ∃ lead : ℤ, (10 : ℚ) ^ lead ≤ single.value a ∧ single.value a < 10 ^ (lead + 1) ∧
      -45 ≤ lead ∧ lead ≤ 38 ∧ (l * 3 / 10 - lead).natAbs < 60 := by
  obtain ⟨hleast, hgreatest⟩ := value_bounds h0 ha
  obtain ⟨lead, hlead, hnext⟩ : ∃ n : ℤ, single.value a ∈ Set.Ico ((10 : ℚ) ^ n) (10 ^ (n + 1)) :=
    exists_mem_Ico_zpow ((by positivity : (0 : ℚ) < 2 ^ l).trans_le hlow) (by norm_num)
  have hten {m n : ℤ} (h : (10 : ℚ) ^ m < 10 ^ n) : m < n := (zpow_lt_zpow_iff_right₀ (by norm_num)).1 h
  have htwo {m n : ℤ} (h : (2 : ℚ) ^ m < 2 ^ n) : m < n := (zpow_lt_zpow_iff_right₀ (by norm_num)).1 h
  have hlead_lt : lead < 39 := hten ((hlead.trans_lt hgreatest).trans (by norm_num))
  have hlt_lead : -45 < lead + 1 :=
    hten (lt_of_le_of_lt (le_trans (by norm_num) hleast) hnext)
  have hl_lt : l < 128 := htwo (hlow.trans_lt hgreatest)
  have hlt_l : -149 < l + 1 := htwo (hleast.trans_lt hhigh)
  refine ⟨lead, hlead, hnext, by omega, by omega, ?_⟩
  -- a value and its first digit lie on the same side of one
  rcases Int.lt_or_le l 0 with hl | hl
  · have hone : (2 : ℚ) ^ (l + 1) ≤ 10 ^ (0 : ℤ) := by
      rw [zpow_zero]
      exact zpow_le_one_of_nonpos₀ one_le_two (by omega)
    have := hten (hlead.trans_lt (hhigh.trans_le hone))
    omega
  · have hone : (10 : ℚ) ^ (0 : ℤ) ≤ 2 ^ l := by
      rw [zpow_zero]
      exact one_le_zpow₀ one_le_two hl
    have := hten ((hone.trans hlow).trans_lt hnext)
    omega

theorem Found.digits_lt (h0 : 0 < a) {k : Nat} {unit lead : ℤ} (h : Found a k unit)
    (hnext : single.value a < 10 ^ (lead + 1)) (hunit : lead - 8 ≤ unit) : k < 2 * 10 ^ 9 := by
  have hspacing : single.spacing a ≤ single.value a := by
    have hone : 1 ≤ single.significand a := by
      obtain ⟨heq, -, hplace⟩ := single.place_mul_add_significand a
      rcases hplace with hplace | hplace
      · exact Nat.one_le_two_pow.trans hplace
      · rw [hplace] at heq
        omega
    calc single.spacing a = 1 * single.spacing a := (one_mul _).symm
      _ ≤ single.value a := mul_le_mul_of_nonneg_right (by exact_mod_cast hone) (spacing_pos a).le
  have hmiddle := h.rounds.le_middle
  rw [middle] at hmiddle
  have hstep : (10 : ℚ) ^ (lead + 1) ≤ 10 ^ 9 * 10 ^ unit := by
    rw [← zpow_natCast, ← zpow_add₀ (by norm_num)]
    exact zpow_le_zpow_right₀ (by norm_num) (by push_cast; omega)
  have hpos : (0 : ℚ) < 10 ^ unit := by positivity
  generalize (10 : ℚ) ^ unit = step at *
  have hlt : (k : ℚ) * step < (2 * 10 ^ 9 : ℕ) * step := by
    push_cast
    linarith
  exact_mod_cast lt_of_mul_lt_mul_right hlt hpos.le

/-- The shortest decimal of a finite magnitude is one that was found, less its zeros at the end. -/
theorem shortest_spec {x : Single} (h0 : 0 < x.magnitude) (hfinite : x.magnitude < single.infinity) :
    ∃ k unit, Found x.magnitude k unit ∧ k < 2 * 10 ^ 9 ∧ -53 ≤ unit ∧ unit ≤ 38 ∧
      ∃ n : ℕ, n ≤ 12 ∧ (shortest x).exponent = unit + n ∧ (shortest x).digits * 10 ^ n = k ∧
        (shortest x).negative = x.negative := by
  obtain ⟨hvalue, hden⟩ := single.quotient_eq x.magnitude
  have hnum : 0 < (single.quotient x.magnitude).1 := by
    have hpos : 0 < single.value x.magnitude :=
      (by positivity : (0 : ℚ) < 2 ^ (-149 : ℤ)).trans_le (value_bounds h0 hfinite).1
    rw [← hvalue, div_eq_mul_inv] at hpos
    exact pos_of_cast_mul_pos hpos
  obtain ⟨hlow, hhigh⟩ := log2Quotient_spec hnum hden
  rw [hvalue] at hlow hhigh
  obtain ⟨lead, hlead, hnext, hlower, hupper, hfuel⟩ := exists_lead h0 hfinite hlow hhigh
  have hfirst := leadExponent_eq hden (hvalue ▸ hlead) (hvalue ▸ hnext) hfuel
  obtain ⟨k, unit, hsearch, hfound, hbelow, habove⟩ :=
    shortestFrom_spec h0 hfinite hden hvalue hlead (Nat.le_refl 1) (rfl : 9 + 1 = 10) (by decide)
  obtain ⟨n, hn, hexponent, hdigits⟩ := dropZeros_spec 12 k unit
  have hshortest : shortest x = ⟨x.negative, (dropZeros 12 k unit).1, (dropZeros 12 k unit).2⟩ := by
    unfold shortest
    rw [if_neg h0.ne']
    dsimp only
    rw [hfirst, hsearch]
  rw [hshortest]
  exact ⟨k, unit, hfound, hfound.digits_lt h0 hnext hbelow, by omega, by omega, n, hn, hexponent,
    hdigits, rfl⟩

end Shortest

end Decimal

end Consolidation.Number
