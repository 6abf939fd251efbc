/-
# `Proofs.Number.Rereading` — a single is read back from its shortest decimal

A decimal rounds to a single by the middles beside the single, so reading may change it as long as it stays on its side of
them (`Rounds.of_sides`).  It does if it is not very close to a middle (`Found.apart`), or on it (`tie_exponent_bounds`).
The distance from a middle is that of a multiple of a power of five from an integer.  The singles with a middle that is
too close are few, and are checked one by one (`readsBack_closeMagnitudes`).

There are three kinds of finite singles:

* those with no middle near the decimal, for which the error of reading is too small to matter (`sameSide_of_apart`);
* those on a middle, where the decimal has few digits and is read without an error;
* the listed ones, which are read back one by one.

That this covers all rests on the bound for multiples of powers of five in `Proofs.Number.Bracket`: a decimal that is not
on a middle and close to it would be a multiple that comes too close to an integer.
-/
import Consolidation.Proofs.Json.Numbers
import Consolidation.Proofs.Number.Bracket
import Consolidation.Proofs.Number.Estimate
import Consolidation.Proofs.Number.Shortest

namespace Consolidation.Number

open BinaryFormat

namespace BinaryFormat

/-! ## Middles -/

variable {f : BinaryFormat}

/-- One number is on the same side of a third one as another. -/
structure SameSide (v w middle : ℚ) : Prop where
  below : v < middle → w < middle
  on : v = middle → w = middle
  above : middle < v → middle < w

/-- A number rounds to the same magnitude as another one on the same sides of the middles beside this magnitude. -/
theorem Rounds.of_sides {a : Nat} {v w : ℚ} (h : f.Rounds a v)
    (hsides : ∀ b, a = b ∨ a = b + 1 → SameSide v w (f.middle b)) : f.Rounds a w := by
  have habove := hsides a (.inl rfl)
  constructor
  case le_middle =>
    rcases h.le_middle.lt_or_eq with hlt | heq
    · exact (habove.below hlt).le
    · exact (habove.on heq).le
  case even =>
    intro heq
    rcases h.le_middle.lt_or_eq with hlt | htie
    · exact absurd heq (habove.below hlt).ne
    · exact h.even htie
  case middle_le =>
    intro b hb
    rcases (h.middle_le b hb).lt_or_eq with hlt | heq
    · exact ((hsides b (.inr hb)).above hlt).le
    · exact ((hsides b (.inr hb)).on heq.symm).ge
  case even_of_below =>
    intro b hb heq
    rcases (h.middle_le b hb).lt_or_eq with hlt | htie
    · exact absurd heq ((hsides b (.inr hb)).above hlt).ne'
    · exact h.even_of_below b hb htie.symm

theorem spacing_single (b : Nat) : single.spacing b = 2 * 2 ^ ((single.place b : ℤ) - 150) := by
  rw [spacing, ← zpow_one_add₀ two_ne_zero, show single.leastExponent = 149 from rfl]
  congr 1
  push_cast
  ring

/-- A middle is an odd number of half spacings. -/
theorem middle_single (b : Nat) :
    single.middle b = (2 * single.significand b + 1 : ℕ) * 2 ^ ((single.place b : ℤ) - 150) := by
  rw [middle, value, spacing_single]
  push_cast
  ring

theorem middle_count_lt (b : Nat) : 2 * single.significand b + 1 < FivePower.limit := by
  have hsignificand : single.significand b < 2 * 2 ^ 23 := significand_lt b
  unfold FivePower.limit
  omega

theorem abs_value_sub_middle {a b : Nat} (h : a = b ∨ a = b + 1) :
    |f.value a - f.middle b| = f.spacing b / 2 ∧ f.spacing b ≤ f.spacing a := by
  have hpos := spacing_pos (f := f) b
  rcases h with rfl | rfl
  · refine ⟨?_, le_refl _⟩
    rw [middle, abs_of_nonpos (by linarith)]
    ring
  · refine ⟨?_, spacing_mono (Nat.le_succ b)⟩
    rw [middle, value_succ, abs_of_nonneg (by linarith)]
    ring

end BinaryFormat

namespace Decimal

/-! ## Decimals that were found -/

section Found

variable {a b k : Nat} {unit : ℤ}

theorem Found.digits_pos (h : Found a k unit) (h0 : 0 < a) : 0 < k := by
  obtain ⟨b, rfl⟩ := Nat.exists_eq_add_of_lt h0
  have hpos : (0 : ℚ) < k * 10 ^ unit := by
    refine lt_of_lt_of_le ?_ (h.rounds.middle_le _ rfl)
    exact (value_nonneg _).trans_lt (value_lt_middle _)
  exact pos_of_cast_mul_pos hpos

/-- A decimal that was found is not very close to a middle, unless this is known of its grid. -/
theorem Found.apart (h : Found a k unit) (h0 : 0 < a) (hunit : unit ≤ 38) (hb : a = b ∨ a = b + 1)
    (hclose : ∀ j : ℕ, (single.place b : ℤ) - 150 + j = FivePower.floorLog unit + unit → -45 ≤ unit →
      (k * 2 ^ j, 2 * single.significand b + 1) ∉ FivePower.closePairs unit)
    (hne : k * 10 ^ unit ≠ single.middle b) :
    single.spacing b ≤ 2 ^ 28 * |k * 10 ^ unit - single.middle b| := by
  obtain ⟨hmiddle, hspacing⟩ := abs_value_sub_middle (f := single) hb
  have hpos := spacing_pos (f := single) b
  by_cases hfine : 2 * 10 ^ unit < single.spacing b
  · -- on a fine grid the decimal is near the value of the magnitude
    have hnear := h.near (hfine.trans_le hspacing)
    have htriangle := abs_sub_le (single.value a) (k * 10 ^ unit) (single.middle b)
    linarith
  · have hhalf := spacing_single b
    have hgrid : (2 : ℚ) ^ ((single.place b : ℤ) - 150) ≤ 10 ^ unit := by linarith
    have hlow : -45 ≤ unit := by
      have hleast : (10 : ℚ) ^ (-46 : ℤ) < 10 ^ unit := by
        refine lt_of_lt_of_le ?_ hgrid
        calc (10 : ℚ) ^ (-46 : ℤ) < 2 ^ (-150 : ℤ) := by norm_num
          _ ≤ 2 ^ ((single.place b : ℤ) - 150) := zpow_le_zpow_right₀ one_le_two (by omega)
      have := (zpow_lt_zpow_iff_right₀ (by norm_num)).1 hleast
      omega
    rw [middle_single] at hne ⊢
    have hapart := FivePower.le_abs_sub hlow hunit hgrid (h.digits_pos h0) (middle_count_lt b)
      (fun j hj => hclose j hj hlow) hne
    unfold FivePower.parts at hapart
    rw [hhalf]
    push_cast at hapart ⊢
    norm_num at hapart ⊢
    linarith

end Found

/-! ## Reading near a middle -/

/-- A decimal on a middle of singles has a small exponent, since the power of five has to divide the other side. -/
theorem tie_exponent_bounds {digits m : Nat} {exponent s : ℤ} (hpos : 0 < digits) (hdigits : digits < 2 ^ 53)
    (hmpos : 0 < m) (hm : m < FivePower.limit) (h : (digits : ℚ) * 10 ^ exponent = m * 2 ^ s) :
    -22 ≤ exponent ∧ exponent ≤ 22 := by
  have hcross : digits * 10 ^ exponent.toNat * 2 ^ (-s).toNat = m * 2 ^ s.toNat * 10 ^ (-exponent).toNat := by
    rw [zpow_eq_div 10, zpow_eq_div 2, ← mul_div_assoc, ← mul_div_assoc,
      div_eq_div_iff (by positivity) (by positivity)] at h
    exact_mod_cast h
  have hcoprime (e n : ℕ) : Nat.Coprime (5 ^ e) (2 ^ n) := Nat.Coprime.pow _ _ (by decide)
  have hfive {e : ℕ} (he : 23 ≤ e) {n : ℕ} (hn : 0 < n) (hlt : n < 2 ^ 53) : ¬5 ^ e ∣ n := by
    intro hdvd
    have h23 : (5 : ℕ) ^ 23 ≤ 5 ^ e := Nat.pow_le_pow_right (by decide) he
    have hle := h23.trans (Nat.le_of_dvd hn hdvd)
    omega
  have hten (e : ℕ) : 5 ^ e ∣ 10 ^ e := pow_dvd_pow_of_dvd (by decide) e
  constructor
  · by_contra hlow
    refine hfive (by omega : 23 ≤ (-exponent).toNat) hpos hdigits ?_
    refine (hcoprime _ (-s).toNat).dvd_of_dvd_mul_right ?_
    have hdvd : 5 ^ (-exponent).toNat ∣ digits * 10 ^ exponent.toNat * 2 ^ (-s).toNat := by
      rw [hcross]
      exact Dvd.dvd.mul_left (hten _) _
    rwa [show exponent.toNat = 0 by omega, pow_zero, Nat.mul_one] at hdvd
  · by_contra hhigh
    refine hfive (by omega : 23 ≤ exponent.toNat) hmpos (hm.trans (by decide)) ?_
    refine (hcoprime _ s.toNat).dvd_of_dvd_mul_right ?_
    have hdvd : 5 ^ exponent.toNat ∣ m * 2 ^ s.toNat * 10 ^ (-exponent).toNat := by
      rw [← hcross]
      exact Dvd.dvd.mul_right (Dvd.dvd.mul_left (hten _) _) _
    rwa [show (-exponent).toNat = 0 by omega, pow_zero, Nat.mul_one] at hdvd

/-- Reading a decimal that is not very close to a middle does not take it to the other side. -/
theorem sameSide_of_apart {v w : ℚ} {b : Nat} (herror : |v - w| ≤ readingError * w)
    (hapart : v ≠ single.middle b → single.spacing b ≤ 2 ^ 28 * |v - single.middle b|)
    (htie : v = single.middle b → w = single.middle b) : SameSide v w (single.middle b) := by
  have hmiddle : 2 * single.middle b ≤ (2 ^ 25 - 1) * single.spacing b := by
    have hsignificand : single.significand b < 2 * 2 ^ 23 := significand_lt b
    have hle : (2 * single.significand b + 1 : ℚ) ≤ 2 ^ 25 - 1 := by
      have : ((2 * single.significand b + 1 : ℕ) : ℚ) ≤ (2 ^ 25 - 1 : ℕ) := Nat.cast_le.2 (by omega)
      push_cast at this
      linarith
    have hscale := mul_le_mul_of_nonneg_right hle (spacing_pos (f := single) b).le
    rw [middle, value]
    linarith
  have hpos := spacing_pos (f := single) b
  have hbelow := neg_abs_le (v - w)
  have habove := le_abs_self (v - w)
  unfold readingError halfStep at herror
  refine ⟨fun hlt => ?_, htie, fun hlt => ?_⟩
  · have hgap := hapart hlt.ne
    rw [abs_of_nonpos (by linarith)] at hgap
    by_contra hle
    linarith
  · have hgap := hapart hlt.ne'
    rw [abs_of_nonneg (by linarith)] at hgap
    by_contra hle
    linarith

/-- A decimal that was found is read as a double that rounds to the same single, whatever its digits and exponent are, if
no middle beside the single is too close. -/
theorem Found.exists_estimate {a k digits : Nat} {unit exponent : ℤ} (h : Found a k unit) (h0 : 0 < a)
    (hunit : unit ≤ 38) (hclose : ∀ b, a = b ∨ a = b + 1 → ∀ j : ℕ,
      (single.place b : ℤ) - 150 + j = FivePower.floorLog unit + unit → -45 ≤ unit →
        (k * 2 ^ j, 2 * single.significand b + 1) ∉ FivePower.closePairs unit)
    (heq : (digits : ℚ) * 10 ^ exponent = k * 10 ^ unit) (hdigits : digits < 2 ^ 53)
    (hlow : -60 ≤ exponent) (hhigh : exponent ≤ 60) :
    ∃ m, estimateOf? digits exponent = some m ∧ single.Rounds a (double.value m) := by
  have hpos : 0 < digits := by
    have hvalue : (0 : ℚ) < digits * 10 ^ exponent := by
      rw [heq]
      have : (0 : ℚ) < k := by exact_mod_cast h.digits_pos h0
      positivity
    exact pos_of_cast_mul_pos hvalue
  obtain ⟨m, hm, herror, hexact⟩ := estimateOf?_spec hpos hdigits hlow hhigh
  rw [heq] at herror hexact
  refine ⟨m, hm, h.rounds.of_sides fun b hb => sameSide_of_apart herror ?_ ?_⟩
  · exact h.apart h0 hunit hb (hclose b hb)
  · intro htie
    have hcount := middle_count_lt b
    have hmiddle := htie.trans (middle_single b)
    obtain ⟨hbelow, habove⟩ := tie_exponent_bounds hpos hdigits (Nat.succ_pos _) hcount (heq.trans hmiddle)
    rw [← htie]
    exact (hexact hbelow habove).value_eq (hcount.trans (by decide)) (by omega) hmiddle

/-! ## Decimals as they are read back -/

theorem reread_value (d : Decimal) :
    (d.reread.digits : ℚ) * 10 ^ d.reread.exponent = d.digits * 10 ^ d.exponent := by
  unfold reread
  split
  · next hzero => simp [hzero]
  · split
    · next hshort =>
      obtain ⟨n, hn⟩ := Int.eq_ofNat_of_zero_le hshort.1
      rw [hn]
      push_cast
      rw [Int.toNat_natCast, zpow_natCast, zpow_neg_one, pow_succ]
      field_simp
    · rfl

theorem reread_bounds {d : Decimal} (h : d.digits < 2 * 10 ^ 9) :
    d.reread.digits < 2 ^ 53 ∧ (d.reread.exponent = -1 ∨ d.reread.exponent = d.exponent) := by
  unfold reread
  split
  · exact ⟨Nat.two_pow_pos 53, .inl rfl⟩
  · split
    · next hshort =>
      refine ⟨?_, .inl rfl⟩
      obtain ⟨n, hn⟩ := Int.eq_ofNat_of_zero_le hshort.1
      have hcount : digitCount d.digits ≤ 13 - n := by omega
      have hpos : 0 < digitCount d.digits := Nat.length_toDigits_pos
      have hlt : d.digits < 10 ^ (13 - n) :=
        (Nat.length_toDigits_le_iff (by decide) (by omega)).1 hcount
      dsimp only
      rw [hn, Int.toNat_natCast]
      calc d.digits * 10 ^ (n + 1) < 10 ^ (13 - n) * 10 ^ (n + 1) :=
            Nat.mul_lt_mul_of_pos_right hlt (by positivity)
        _ = 10 ^ 14 := by
          rw [← pow_add]
          congr 1
          omega
        _ < 2 ^ 53 := by decide
    · exact ⟨h.trans (by decide), .inr rfl⟩

/-- Is a single read back from the decimal that is written for it? -/
def ReadsBack (x : Single) : Prop := (shortest x).reread.toSingleByEstimate? = some x

instance (x : Single) : Decidable (ReadsBack x) := inferInstanceAs (Decidable (_ = _))

theorem estimate?_of_lt {d : Decimal} (h : d.digits < 2 ^ 53) : d.estimate? = estimateOf? d.digits d.exponent := by
  have hfit : fitDigits (digitCount d.digits) d.digits d.exponent = (d.digits, d.exponent) := by
    have hle : d.digits ≤ maxLong := by
      unfold maxLong
      omega
    cases digitCount d.digits with
    | zero => rfl
    | succ n => exact if_pos hle
  unfold estimate?
  rw [hfit]

/-! ## Singles with a middle that is too close -/

/-- The magnitudes beside a middle that a decimal may come too close to. -/
def closeMagnitudes : List Nat :=
  (List.range 84).flatMap fun (n : Nat) =>
    let unit : ℤ := n - 45
    (FivePower.closePairs unit).flatMap fun pair =>
      ((List.range (pair.1.log2 + 1)).filter (fun j => 2 ^ j ∣ pair.1)).flatMap fun (j : Nat) =>
        let b := (FivePower.floorLog unit + unit - j + 150).toNat * 2 ^ 23 + pair.2 / 2
        [b, b + 1]

theorem mem_closeMagnitudes {a b k j : Nat} {unit : ℤ} (hk : 0 < k) (hlow : -45 ≤ unit) (hhigh : unit ≤ 38)
    (hb : a = b ∨ a = b + 1)
    (hj : (single.place b : ℤ) - 150 + j = FivePower.floorLog unit + unit)
    (hpair : (k * 2 ^ j, 2 * single.significand b + 1) ∈ FivePower.closePairs unit) :
    a ∈ closeMagnitudes := by
  obtain ⟨n, hn⟩ := Int.eq_ofNat_of_zero_le (by omega : 0 ≤ unit + 45)
  obtain rfl : unit = (n : ℤ) - 45 := by omega
  have hjle : j ≤ (k * 2 ^ j).log2 :=
    (Nat.le_log2 (by positivity)).2 (Nat.le_mul_of_pos_left _ hk)
  have hplace : (FivePower.floorLog (n - 45) + (n - 45) - j + 150).toNat * 2 ^ 23 +
      (2 * single.significand b + 1) / 2 = b := by
    rw [← hj, show (single.place b : ℤ) - 150 + j - j + 150 = single.place b by ring, Int.toNat_natCast,
      show (2 * single.significand b + 1) / 2 = single.significand b by omega]
    exact (single.place_mul_add_significand b).1
  refine List.mem_flatMap.2 ⟨n, List.mem_range.2 (by omega), List.mem_flatMap.2 ⟨_, hpair,
    List.mem_flatMap.2 ⟨j, List.mem_filter.2 ⟨List.mem_range.2 (Nat.lt_succ_of_le hjle), ?_⟩, ?_⟩⟩⟩
  · exact decide_eq_true (Dvd.intro_left k rfl)
  dsimp only
  rw [hplace]
  simpa using hb

theorem readsBack_closeMagnitudes : ∀ a ∈ closeMagnitudes, ∀ h : a < 0x80000000, ∀ negative : Bool,
    ReadsBack ⟨negative, a, h⟩ := by
  decide +kernel

/-! ## All singles -/

theorem readsBack_zero (negative : Bool) : ReadsBack ⟨negative, 0, by decide⟩ := by
  cases negative <;> decide

/-- Every finite single is read back from the decimal that is written for it. -/
theorem readsBack_of_isFinite {x : Single} (h : x.isFinite = true) : ReadsBack x := by
  have hfinite : x.magnitude < single.infinity := of_decide_eq_true h
  rcases Nat.eq_zero_or_pos x.magnitude with hzero | h0
  · obtain ⟨negative, magnitude, bound⟩ := x
    obtain rfl : magnitude = 0 := hzero
    exact readsBack_zero negative
  by_cases hspecial : x.magnitude ∈ closeMagnitudes
  · exact readsBack_closeMagnitudes _ hspecial x.bound x.negative
  obtain ⟨k, unit, hfound, hk, hlow, hhigh, n, hn, hexponent, hdigits, hnegative⟩ := shortest_spec h0 hfinite
  have hle : (shortest x).digits ≤ k := by
    rw [← hdigits]
    exact Nat.le_mul_of_pos_right _ (by positivity)
  have hvalue : ((shortest x).digits : ℚ) * 10 ^ (shortest x).exponent = k * 10 ^ unit := by
    rw [← hdigits, hexponent, zpow_add₀ (by norm_num), zpow_natCast]
    push_cast
    ring
  obtain ⟨hfew, hsmall⟩ := reread_bounds (hle.trans_lt hk)
  obtain ⟨m, hm, hrounds⟩ := hfound.exists_estimate h0 hhigh
    (fun b hb j hj hlow hpair => hspecial (mem_closeMagnitudes (hfound.digits_pos h0) hlow hhigh hb hj hpair))
    ((reread_value _).trans hvalue) hfew (by omega) (by omega)
  obtain ⟨hquotient, hden⟩ := double.quotient_eq m
  rw [ReadsBack, toSingleByEstimate?, estimate?_of_lt hfew, hm, Option.map_some, reread_negative, hnegative,
    Single.ofQuotient]
  congr 1
  have hnearest := (nearest_eq_iff (by decide) hden hfinite).2 (hquotient ▸ hrounds)
  obtain ⟨negative, magnitude, bound⟩ := x
  simpa using hnearest

end Decimal

end Consolidation.Number
