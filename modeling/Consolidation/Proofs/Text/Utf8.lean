/-
# `Proofs.Text.Utf8` — what is written as bytes is read back

Each character is read back from its bytes, whatever follows (`decodeOne_encodeChar`), and so is each text
(`decode?_encode`).  The cases are the four lengths that a character can have.

A lead byte tells how long its sequence is, and of some lead bytes the second byte is limited, so that no character has
two sequences and no half of a pair has one.  What is read is the number that the bits make; it is a character since it
was one when it was written.
-/
import Consolidation.Text.Utf8

namespace Consolidation.Text.Utf8

theorem toNat_valid (c : Char) : c.toNat < 0xD800 ∨ 0xDFFF < c.toNat ∧ c.toNat < 0x110000 := c.valid

theorem toNat_toUInt8 {n : Nat} (h : n < 0x100) : n.toUInt8.toNat = n := by
  simp [Nat.mod_eq_of_lt h]

theorem tailBytes_zero (acc : Nat) (bytes : List UInt8) : tailBytes acc 0 bytes = (0, acc) := by
  cases bytes <;> rfl

theorem tailBytes_succ {n : Nat} (acc count : Nat) (rest : List UInt8) (hn : n < 0x40) :
    tailBytes acc (count + 1) ((0x80 + n).toUInt8 :: rest) =
      ((tailBytes (acc * 0x40 + n) count rest).1 + 1, (tailBytes (acc * 0x40 + n) count rest).2) := by
  have hbyte : (0x80 + n).toUInt8.toNat = 0x80 + n := toNat_toUInt8 (by omega)
  have hbits : (0x80 + n) % 0x40 = n := by omega
  have hrange : (decide (0x80 ≤ 0x80 + n) && decide (0x80 + n ≤ 0xBF)) = true := by
    simp only [Bool.and_eq_true, decide_eq_true_eq]
    omega
  rw [tailBytes, hbyte, if_pos hrange, hbits]

/-! ## One character -/

theorem continuation?_two {b : Nat} (h : 0xC2 ≤ b ∧ b ≤ 0xDF) :
    continuation? b = some (0x80, 0xBF, 0) := by
  simp [continuation?, h.1, h.2]

theorem continuation?_three {b : Nat} (h : 0xE0 ≤ b ∧ b ≤ 0xEF) :
    ∃ lo hi, continuation? b = some (lo, hi, 1) ∧ lo ≤ (if b = 0xE0 then 0xA0 else 0x80) ∧
      (if b = 0xED then 0x9F else 0xBF) ≤ hi := by
  unfold continuation?
  rw [if_neg (by simp; omega)]
  by_cases h0 : b = 0xE0
  · subst h0
    exact ⟨_, _, rfl, by decide, by decide⟩
  · by_cases hd : b = 0xED
    · subst hd
      exact ⟨_, _, rfl, by decide, by decide⟩
    · rw [if_neg (by simpa using h0), if_neg (by simpa using hd), if_pos (by simp; omega)]
      exact ⟨_, _, rfl, by simp [h0], by simp [hd]⟩

theorem continuation?_four {b : Nat} (h : 0xF0 ≤ b ∧ b ≤ 0xF4) :
    ∃ lo hi, continuation? b = some (lo, hi, 2) ∧ lo ≤ (if b = 0xF0 then 0x90 else 0x80) ∧
      (if b = 0xF4 then 0x8F else 0xBF) ≤ hi := by
  have : b = 0xF0 ∨ b = 0xF1 ∨ b = 0xF2 ∨ b = 0xF3 ∨ b = 0xF4 := by omega
  rcases this with rfl | rfl | rfl | rfl | rfl <;> exact ⟨_, _, rfl, by decide, by decide⟩

/-! The four lengths. -/

section Lengths

variable {n : Nat} (after : List UInt8)

theorem decodeOne_one (h : n < 0x80) : decodeOne n.toUInt8 after = (some (Char.ofNat n), 0) := by
  unfold decodeOne
  rw [toNat_toUInt8 (by omega), if_pos h]

theorem decodeOne_two (h : 0x80 ≤ n ∧ n < 0x800) :
    decodeOne (0xC0 + n / 0x40).toUInt8 ((0x80 + n % 0x40).toUInt8 :: after) =
      (some (Char.ofNat n), 1) := by
  have hlead : (0xC0 + n / 0x40).toUInt8.toNat = 0xC0 + n / 0x40 := toNat_toUInt8 (by omega)
  have hsecond : (0x80 + n % 0x40).toUInt8.toNat = 0x80 + n % 0x40 := toNat_toUInt8 (by omega)
  have hvalue : (0xC0 + n / 0x40) % 0x20 * 0x40 + (0x80 + n % 0x40) % 0x40 = n := by omega
  unfold decodeOne
  simp only [hlead]
  rw [if_neg (by omega), continuation?_two (by omega)]
  simp only [hsecond, tailBytes_zero]
  rw [if_pos (by simp only [Bool.and_eq_true, decide_eq_true_eq]; omega)]
  simp only [beq_self_eq_true, if_true, hvalue]

theorem decodeOne_three (h : 0x800 ≤ n ∧ n < 0x10000) (hvalid : n < 0xD800 ∨ 0xDFFF < n) :
    decodeOne (0xE0 + n / 0x1000).toUInt8
        ((0x80 + n / 0x40 % 0x40).toUInt8 :: (0x80 + n % 0x40).toUInt8 :: after) =
      (some (Char.ofNat n), 2) := by
  have hlead : (0xE0 + n / 0x1000).toUInt8.toNat = 0xE0 + n / 0x1000 := toNat_toUInt8 (by omega)
  have hsecond : (0x80 + n / 0x40 % 0x40).toUInt8.toNat = 0x80 + n / 0x40 % 0x40 :=
    toNat_toUInt8 (by omega)
  have hvalue : ((0xE0 + n / 0x1000) % 0x10 * 0x40 + (0x80 + n / 0x40 % 0x40) % 0x40) * 0x40 +
      n % 0x40 = n := by omega
  obtain ⟨lo, hi, hcont, hlo, hhi⟩ :=
    continuation?_three (b := 0xE0 + n / 0x1000) (by omega)
  unfold decodeOne
  simp only [hlead]
  rw [if_neg (by omega), hcont]
  simp only [hsecond, tailBytes_succ _ _ _ (Nat.mod_lt n (by decide : 0 < 0x40)), tailBytes_zero]
  rw [if_pos (by
    simp only [Bool.and_eq_true, decide_eq_true_eq]
    split at hlo <;> split at hhi <;> omega)]
  simp only [Nat.reduceBEq, Bool.false_eq_true, if_false, if_true, hvalue]
  rfl

theorem decodeOne_four (h : 0x10000 ≤ n ∧ n < 0x110000) :
    decodeOne (0xF0 + n / 0x40000).toUInt8 ((0x80 + n / 0x1000 % 0x40).toUInt8 ::
        (0x80 + n / 0x40 % 0x40).toUInt8 :: (0x80 + n % 0x40).toUInt8 :: after) =
      (some (Char.ofNat n), 3) := by
  have hlead : (0xF0 + n / 0x40000).toUInt8.toNat = 0xF0 + n / 0x40000 :=
    toNat_toUInt8 (by omega)
  have hsecond : (0x80 + n / 0x1000 % 0x40).toUInt8.toNat = 0x80 + n / 0x1000 % 0x40 :=
    toNat_toUInt8 (by omega)
  have hvalue : (((0xF0 + n / 0x40000) % 8 * 0x40 + (0x80 + n / 0x1000 % 0x40) % 0x40) * 0x40 +
      n / 0x40 % 0x40) * 0x40 + n % 0x40 = n := by omega
  obtain ⟨lo, hi, hcont, hlo, hhi⟩ :=
    continuation?_four (b := 0xF0 + n / 0x40000) (by omega)
  unfold decodeOne
  simp only [hlead]
  rw [if_neg (by omega), hcont]
  simp only [hsecond, tailBytes_succ _ _ _ (Nat.mod_lt _ (by decide : 0 < 0x40)), tailBytes_zero]
  rw [if_pos (by
    simp only [Bool.and_eq_true, decide_eq_true_eq]
    split at hlo <;> split at hhi <;> omega)]
  simp only [Nat.reduceBEq, Bool.false_eq_true, if_false, hvalue]
  rfl

end Lengths

/-- A character is read back from its bytes, and takes all of them. -/
theorem decodeOne_encodeChar (c : Char) (after : List UInt8) :
    ∃ b rest, encodeChar c = b :: rest ∧ decodeOne b (rest ++ after) = (some c, rest.length) := by
  have hvalid := toNat_valid c
  have hc : Char.ofNat c.toNat = c := Char.ofNat_toNat c
  by_cases h1 : c.toNat < 0x80
  · refine ⟨_, _, by simp only [encodeChar, if_pos h1]; rfl, ?_⟩
    rw [List.nil_append, decodeOne_one after h1, hc]
    rfl
  · by_cases h2 : c.toNat < 0x800
    · refine ⟨_, _, by simp only [encodeChar, if_neg h1, if_pos h2]; rfl, ?_⟩
      simp only [List.cons_append, List.nil_append]
      rw [decodeOne_two after ⟨by omega, h2⟩, hc]
      rfl
    · by_cases h3 : c.toNat < 0x10000
      · refine ⟨_, _, by simp only [encodeChar, if_neg h1, if_neg h2, if_pos h3]; rfl, ?_⟩
        simp only [List.cons_append, List.nil_append]
        rw [decodeOne_three after ⟨by omega, h3⟩ (by omega), hc]
        rfl
      · refine ⟨_, _, by simp only [encodeChar, if_neg h1, if_neg h2, if_neg h3]; rfl, ?_⟩
        simp only [List.cons_append, List.nil_append]
        rw [decodeOne_four after ⟨by omega, by omega⟩, hc]
        rfl

/-! ## Texts -/

theorem decodeFrom_skip (taken rest : List UInt8) :
    decodeFrom taken.length (taken ++ rest) = decodeFrom 0 rest := by
  induction taken with
  | nil => rfl
  | cons b taken ih => exact ih

theorem decodeFrom_encodeChar (c : Char) (after : List UInt8) :
    decodeFrom 0 (encodeChar c ++ after) = some c :: decodeFrom 0 after := by
  obtain ⟨b, rest, hbytes, hone⟩ := decodeOne_encodeChar c after
  rw [hbytes, List.cons_append, decodeFrom, hone]
  exact congrArg (some c :: ·) (decodeFrom_skip rest after)

theorem decodeFrom_encode (s : List Char) : decodeFrom 0 (encode s) = s.map some := by
  induction s with
  | nil => rfl
  | cons c s ih =>
    rw [encode, List.flatMap_cons, decodeFrom_encodeChar]
    exact congrArg (some c :: ·) ih

/-- What is written is read back. -/
theorem decode?_encode (s : List Char) : decode? (encode s) = some s := by
  rw [decode?, decodeFrom_encode]
  induction s with
  | nil => rfl
  | cons c s ih => simp [ih]

end Consolidation.Text.Utf8
