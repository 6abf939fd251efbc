/-
# `Proofs.Json.Numbers` — numbers are read back from their texts

A number is written in up to four parts: a sign, digits, a fraction and an exponent (`readNumber?_parts`).  Each part ends
where a character follows that does not go on with it, and after the last one comes something by which a value ends
(`Ends`).  Integers are their digits; a decimal is written with a fraction or an exponent, which decides how it comes back
(`reread`).

The digits of a decimal are written in one of four ways, which the exponent decides (`exists_parts`): with all its digits
before the point, with the point among them, with the point and zeros before them, or with an exponent.  Reading goes
through the parts and does not know these ways, so each way is told as parts first.
-/
import Mathlib.Algebra.Group.Nat.Defs
import Consolidation.Json.Reader
import Consolidation.Json.Writer

namespace Consolidation

/-- What a written decimal is read as: a fraction that is written is read with its digits. -/
def Number.Decimal.reread (d : Number.Decimal) : Number.Decimal :=
  if d.digits = 0 then ⟨d.negative, 0, -1⟩
  else if 0 ≤ d.exponent ∧ digitCount d.digits + d.exponent ≤ 13 then
    ⟨d.negative, d.digits * 10 ^ (d.exponent.toNat + 1), -1⟩
  else d

theorem Number.Decimal.reread_negative (d : Number.Decimal) : d.reread.negative = d.negative := by
  unfold reread
  split
  · rfl
  · split <;> rfl

namespace Json

/-! ## Digits -/

theorem toDigits_eq_cons {n : Nat} (hn : n ≠ 0) :
    ∃ c digits, Nat.toDigits 10 n = c :: digits ∧ c ≠ '0' := by
  induction n using Nat.strongRecOn with
  | ind n ih =>
    by_cases hlt : n < 10
    · refine ⟨_, [], Nat.toDigits_of_lt_base hlt, ?_⟩
      have : ∀ k < 10, k ≠ 0 → Nat.digitChar k ≠ '0' := by decide
      exact this n hlt hn
    · obtain ⟨c, digits, heq, hc⟩ := ih (n / 10) (by omega) (by omega)
      refine ⟨c, digits ++ [Nat.digitChar (n % 10)], ?_, hc⟩
      rw [Nat.toDigits_of_base_le (by decide) (by omega), heq, List.cons_append]

theorem isDigit_of_mem_toDigits {n : Nat} {c : Char} (h : c ∈ Nat.toDigits 10 n) : c.isDigit = true :=
  Nat.isDigit_of_mem_toDigits (by decide) (by decide) h

theorem digitsNat_toDigits (n : Nat) : digitsNat (Nat.toDigits 10 n) = n := by
  have h : digitsNat (Nat.toDigits 10 n) = Nat.ofDigitChars 10 (Nat.toDigits 10 n) 0 := by
    rw [Nat.ofDigitChars_eq_foldl, digitsNat]
    congr 1
    funext k c
    rw [Nat.mul_comm]
    rfl
  rw [h, Nat.ofDigitChars_ten_toDigits]

theorem digitsNat_append_zeros (digits : List Char) (n : Nat) :
    digitsNat (digits ++ List.replicate n '0') = digitsNat digits * 10 ^ n := by
  induction n with
  | zero => simp
  | succ n ih =>
    rw [List.replicate_succ', ← List.append_assoc, digitsNat, List.foldl_append]
    rw [digitsNat] at ih
    rw [ih, Nat.pow_succ, ← Nat.mul_assoc]
    rfl

theorem digitsNat_zeros_append (digits : List Char) (n : Nat) :
    digitsNat (List.replicate n '0' ++ digits) = digitsNat digits := by
  induction n with
  | zero => rfl
  | succ n ih => exact ih

/-! ## Ends -/

/-- What a number, or any other value, may be followed by: a line end, a comma, the end of what it is part of, or nothing. -/
def Ends (rest : List Char) : Prop := ∀ c ∈ rest.head?, c ∈ ['\n', ',', ']', '\x7d']

theorem ends_cons {c : Char} (h : c ∈ ['\n', ',', ']', '\x7d']) (rest : List Char) : Ends (c :: rest) := by
  intro d hd
  cases hd
  exact h

/-- What digits may be followed by. -/
def EndsDigits (rest : List Char) : Prop := ∀ c ∈ rest.head?, c.isDigit = false

theorem endsDigits_cons {c : Char} (h : c.isDigit = false) (rest : List Char) : EndsDigits (c :: rest) := by
  intro d hd
  cases hd
  exact h

theorem Ends.endsDigits {rest : List Char} (h : Ends rest) : EndsDigits rest := by
  intro c hc
  have hends : ['\n', ',', ']', '\x7d'].all (fun c => !c.isDigit) = true := rfl
  simpa using List.all_eq_true.1 hends c (h c hc)

theorem Ends.head_ne {rest : List Char} (h : Ends rest) {c : Char} (hc : c ∉ ['\n', ',', ']', '\x7d']) :
    rest.head? ≠ some c := fun heq => hc (h c heq)

theorem EndsDigits.span {digits rest : List Char} (hrest : EndsDigits rest)
    (hdigits : ∀ c ∈ digits, c.isDigit = true) :
    (digits ++ rest).takeWhile Char.isDigit = digits ∧ (digits ++ rest).dropWhile Char.isDigit = rest := by
  rw [List.takeWhile_append_of_pos hdigits, List.dropWhile_append_of_pos hdigits]
  cases rest with
  | nil => simp
  | cons c rest => simp [hrest c rfl]

/-! ## The parts of a number -/

/-- The digits of an integer: no zero stands before another digit. -/
structure Whole (digits : List Char) : Prop where
  digit : ∀ c ∈ digits, c.isDigit = true
  ne_nil : digits ≠ []
  zero : digits.head? = some '0' → digits = ['0']

theorem isDigit_of_mem_zero : ∀ c ∈ ['0'], c.isDigit = true := by
  intro c hc
  rw [List.mem_singleton.1 hc]
  rfl

theorem whole_zero : Whole ['0'] := ⟨isDigit_of_mem_zero, List.cons_ne_nil _ _, fun _ => rfl⟩

theorem whole_toDigits (n : Nat) : Whole (Nat.toDigits 10 n) := by
  refine ⟨fun c hc => isDigit_of_mem_toDigits hc, Nat.toDigits_ne_nil, fun hzero => ?_⟩
  by_cases hn : n = 0
  · rw [hn, Nat.toDigits_zero]
  · obtain ⟨c, digits, heq, hc⟩ := toDigits_eq_cons hn
    rw [heq] at hzero
    exact absurd (Option.some.inj hzero) hc

theorem Whole.readInteger? {digits rest : List Char} (h : Whole digits) (hrest : EndsDigits rest) :
    readInteger? (digits ++ rest) = some (digits, rest) := by
  obtain ⟨htake, hdrop⟩ := hrest.span h.digit
  obtain ⟨c, more, rfl⟩ := List.exists_cons_of_ne_nil h.ne_nil
  by_cases hc : c = '0'
  · obtain rfl := hc
    obtain rfl : more = [] := (List.cons.inj (h.zero rfl)).2
    cases rest with
    | nil => rfl
    | cons d rest => simp [Json.readInteger?, hrest d rfl]
  · unfold Json.readInteger?
    split
    · next hs =>
      cases hs
      exact absurd rfl hc
    · rw [htake, hdrop]
      rfl

def fractionText : List Char → List Char
  | [] => []
  | digits => '.' :: digits

theorem readFraction?_fractionText {digits rest : List Char} (hdigits : ∀ c ∈ digits, c.isDigit = true)
    (hrest : EndsDigits rest) (hpoint : rest.head? ≠ some '.') :
    readFraction? (fractionText digits ++ rest) = some (digits, rest) := by
  cases digits with
  | nil =>
    cases rest with
    | nil => rfl
    | cons c rest =>
      have hc : c ≠ '.' := fun h => hpoint (h ▸ rfl)
      simp [fractionText, readFraction?, hc]
  | cons d digits =>
    obtain ⟨htake, hdrop⟩ := hrest.span hdigits
    rw [fractionText, List.cons_append, readFraction?]
    · simp only [htake, hdrop]
      rfl
    · simp

def exponentText : Option Int → List Char
  | none => []
  | some e => 'e' :: (toString e).toList

theorem readExponent?_toDigits (n : Nat) {rest : List Char} (hrest : EndsDigits rest) :
    readExponent? ('e' :: (Nat.toDigits 10 n ++ rest)) = some (some (n : Int), rest) ∧
      readExponent? ('e' :: '-' :: (Nat.toDigits 10 n ++ rest)) = some (some (-(n : Int)), rest) := by
  obtain ⟨htake, hdrop⟩ := hrest.span fun c hc => isDigit_of_mem_toDigits (n := n) hc
  have hvalue := digitsNat_toDigits n
  obtain ⟨c, digits, hdigits⟩ := List.exists_cons_of_ne_nil (Nat.toDigits_ne_nil (b := 10) (n := n))
  have hc : c.isDigit = true := isDigit_of_mem_toDigits (hdigits ▸ List.mem_cons_self)
  have hminus : c ≠ '-' := by
    rintro rfl
    cases hc
  have hplus : c ≠ '+' := by
    rintro rfl
    cases hc
  rw [hdigits] at htake hdrop hvalue ⊢
  rw [List.cons_append] at htake hdrop ⊢
  constructor <;> simp [readExponent?, hminus, hplus, htake, hdrop, hvalue]

theorem readExponent?_exponentText (exponent : Option Int) {rest : List Char} (hrest : Ends rest) :
    readExponent? (exponentText exponent ++ rest) = some (exponent, rest) := by
  cases exponent with
  | none =>
    cases rest with
    | nil => rfl
    | cons c rest =>
      have he : c ≠ 'e' := fun h => hrest.head_ne (by decide : 'e' ∉ _) (h ▸ rfl)
      have hE : c ≠ 'E' := fun h => hrest.head_ne (by decide : 'E' ∉ _) (h ▸ rfl)
      simp [exponentText, readExponent?, he, hE]
  | some e =>
    cases e with
    | ofNat n =>
      have htext : (toString (Int.ofNat n)).toList = Nat.toDigits 10 n := Nat.toList_repr
      rw [exponentText, htext, List.cons_append]
      exact (readExponent?_toDigits n hrest.endsDigits).1
    | negSucc n =>
      have htext : (toString (Int.negSucc n)).toList = '-' :: Nat.toDigits 10 (n + 1) := by
        have happend : toString (Int.negSucc n) = "-" ++ (n + 1).repr := rfl
        rw [happend, String.toList_append, Nat.toList_repr]
        rfl
      rw [exponentText, htext, List.cons_append, List.cons_append]
      exact (readExponent?_toDigits (n + 1) hrest.endsDigits).2

/-- A number is read back from its parts. -/
theorem readNumber?_parts (negative : Bool) {whole fraction : List Char} (hwhole : Whole whole)
    (hfraction : ∀ c ∈ fraction, c.isDigit = true) (exponent : Option Int) {rest : List Char} (hrest : Ends rest) :
    readNumber? ((if negative then ['-'] else []) ++ whole ++ fractionText fraction ++ exponentText exponent ++ rest) =
      some (⟨⟨negative, digitsNat (whole ++ fraction), exponent.getD 0 - fraction.length⟩,
        fraction.isEmpty && exponent.isNone⟩, rest) := by
  have hexponent := readExponent?_exponentText exponent hrest
  have hends : EndsDigits (exponentText exponent ++ rest) := by
    cases exponent with
    | none => exact hrest.endsDigits
    | some e => exact endsDigits_cons (by decide) _
  have hpoint : (exponentText exponent ++ rest).head? ≠ some '.' := by
    cases exponent with
    | none => exact hrest.head_ne (by decide)
    | some e => simp [exponentText]
  rw [List.append_assoc, List.append_assoc, List.append_assoc]
  generalize exponentText exponent ++ rest = tail at *
  have hread := readFraction?_fractionText hfraction hends hpoint
  have hends' : EndsDigits (fractionText fraction ++ tail) := by
    cases fraction with
    | nil => exact hends
    | cons d digits => exact endsDigits_cons (by decide) _
  have hhas : ((fractionText fraction ++ tail).head? == some '.') = !fraction.isEmpty := by
    cases fraction with
    | nil => simpa [fractionText] using hpoint
    | cons d digits => rfl
  generalize fractionText fraction ++ tail = after at *
  have hinteger := hwhole.readInteger? hends'
  obtain ⟨c, more, rfl⟩ := List.exists_cons_of_ne_nil hwhole.ne_nil
  have hc : c ≠ '-' := by
    rintro rfl
    exact absurd (hwhole.digit '-' List.mem_cons_self) (by decide)
  rw [List.cons_append] at hinteger ⊢
  cases negative with
  | false => simp [readNumber?, hc, hinteger, hhas, hread, hexponent]
  | true => simp [readNumber?, hinteger, hhas, hread, hexponent]

theorem readNumber?_toDigits (n : Nat) {rest : List Char} (h : Ends rest) :
    readNumber? (Nat.toDigits 10 n ++ rest) = some (⟨⟨false, n, 0⟩, true⟩, rest) := by
  have hread := readNumber?_parts false (whole_toDigits n) (fun _ hc => absurd hc List.not_mem_nil) none h
  simpa [fractionText, exponentText, digitsNat_toDigits] using hread

/-! ## Decimals -/

open Number

/-- Parts that make the text of a decimal. -/
structure Parts (d : Decimal) (whole fraction : List Char) (exponent : Option Int) : Prop where
  text : d.dataText = (if d.negative then ['-'] else []) ++ whole ++ fractionText fraction ++ exponentText exponent
  isWhole : Whole whole
  digit : ∀ c ∈ fraction, c.isDigit = true
  value : digitsNat (whole ++ fraction) = d.reread.digits
  power : exponent.getD 0 - (fraction.length : Int) = d.reread.exponent
  fractional : (fraction.isEmpty && exponent.isNone) = false

section Parts

variable {d : Decimal}

theorem parts_zero (hzero : d.digits = 0) : Parts d ['0'] ['0'] none := by
  have hreread : d.reread = ⟨d.negative, 0, -1⟩ := if_pos hzero
  refine ⟨?_, whole_zero, isDigit_of_mem_zero, by rw [hreread]; rfl, by rw [hreread]; rfl, rfl⟩
  rw [Decimal.dataText, if_pos hzero]
  simp [fractionText, exponentText]

theorem parts_integer (hzero : d.digits ≠ 0) (hexponent : 0 ≤ d.exponent)
    (hcount : (Nat.toDigits 10 d.digits).length + d.exponent ≤ 13) :
    Parts d (Nat.toDigits 10 d.digits ++ List.replicate d.exponent.toNat '0') ['0'] none := by
  have hreread : d.reread = ⟨d.negative, d.digits * 10 ^ (d.exponent.toNat + 1), -1⟩ := by
    rw [Decimal.reread, if_neg hzero, if_pos ⟨hexponent, hcount⟩]
  refine ⟨?_, ?_, isDigit_of_mem_zero, ?_, by rw [hreread]; rfl, rfl⟩
  · rw [Decimal.dataText, if_neg hzero]
    simp [hexponent, hcount, Decimal.positionalDigits, fractionText, exponentText]
  · obtain ⟨c, more, htext, hc⟩ := toDigits_eq_cons hzero
    refine ⟨?_, by simp, by simp [htext, hc]⟩
    intro c hmem
    rcases List.mem_append.1 hmem with h | h
    · exact isDigit_of_mem_toDigits h
    · rw [List.eq_of_mem_replicate h]
      rfl
  · rw [hreread, List.append_assoc, ← List.replicate_succ', digitsNat_append_zeros, digitsNat_toDigits]

theorem parts_point (hzero : d.digits ≠ 0) (hexponent : d.exponent < 0)
    (hpoint : 0 < (Nat.toDigits 10 d.digits).length + d.exponent)
    (hcount : (Nat.toDigits 10 d.digits).length + d.exponent ≤ 13) :
    Parts d ((Nat.toDigits 10 d.digits).take ((Nat.toDigits 10 d.digits).length + d.exponent).toNat)
      ((Nat.toDigits 10 d.digits).drop ((Nat.toDigits 10 d.digits).length + d.exponent).toNat) none := by
  have hreread : d.reread = d := by
    rw [Decimal.reread, if_neg hzero, if_neg fun h => absurd h.1 (by omega)]
  have hdigits := digitsNat_toDigits d.digits
  have hdigit : ∀ c ∈ Nat.toDigits 10 d.digits, c.isDigit = true := fun c hc => isDigit_of_mem_toDigits hc
  obtain ⟨c, more, htext, hc⟩ := toDigits_eq_cons hzero
  obtain ⟨n, hn⟩ : ∃ n : Nat, (Nat.toDigits 10 d.digits).length + d.exponent = (n + 1 : Nat) :=
    ⟨((Nat.toDigits 10 d.digits).length + d.exponent - 1).toNat, by omega⟩
  rw [hn, Int.toNat_natCast]
  have hdrop : (Nat.toDigits 10 d.digits).drop (n + 1) ≠ [] := by
    rw [Ne, List.drop_eq_nil_iff]
    omega
  refine ⟨?_, ⟨fun e he => hdigit e (List.mem_of_mem_take he), ?_, ?_⟩, fun e he => hdigit e (List.mem_of_mem_drop he),
    ?_, ?_, ?_⟩
  · obtain ⟨e, fraction, hfraction⟩ := List.exists_cons_of_ne_nil hdrop
    have hcond : (decide (0 ≤ d.exponent) && decide (((n + 1 : Nat) : Int) ≤ 13)) = false := by
      simp only [Bool.and_eq_false_iff, decide_eq_false_iff_not]
      exact .inl (by omega)
    have hcond' : (decide (-5 ≤ ((n + 1 : Nat) : Int)) && decide (((n + 1 : Nat) : Int) ≤ 13)) = true := by
      simp only [Bool.and_eq_true, decide_eq_true_eq]
      omega
    rw [Decimal.dataText, if_neg hzero]
    dsimp only
    rw [hn, hcond, hcond', if_neg Bool.false_ne_true, if_pos rfl, Decimal.positionalDigits,
      if_neg (Int.not_le.2 hexponent), hn, if_pos (Int.natCast_pos.2 (Nat.succ_pos n)), Int.toNat_natCast, hfraction]
    simp [fractionText, exponentText]
  · rw [htext]
    simp
  · rw [htext]
    simp [hc]
  · rw [List.take_append_drop, hdigits, hreread]
  · rw [hreread, List.length_drop]
    simp only [Option.getD_none]
    omega
  · rw [List.isEmpty_eq_false_iff.2 hdrop]
    rfl

theorem parts_small (hzero : d.digits ≠ 0) (hpoint : (Nat.toDigits 10 d.digits).length + d.exponent ≤ 0)
    (hcount : -5 ≤ (Nat.toDigits 10 d.digits).length + d.exponent) :
    Parts d ['0'] (List.replicate (-((Nat.toDigits 10 d.digits).length + d.exponent)).toNat '0' ++
      Nat.toDigits 10 d.digits) none := by
  have hpos : 0 < (Nat.toDigits 10 d.digits).length := Nat.length_toDigits_pos
  have hreread : d.reread = d := by
    rw [Decimal.reread, if_neg hzero, if_neg fun h => absurd h.1 (by omega)]
  have hdigits := digitsNat_toDigits d.digits
  have hdigit : ∀ c ∈ Nat.toDigits 10 d.digits, c.isDigit = true := fun c hc => isDigit_of_mem_toDigits hc
  obtain ⟨n, hn⟩ : ∃ n : Nat, (Nat.toDigits 10 d.digits).length + d.exponent = -(n : Int) :=
    ⟨(-((Nat.toDigits 10 d.digits).length + d.exponent)).toNat, by omega⟩
  rw [hn, Int.neg_neg, Int.toNat_natCast]
  refine ⟨?_, whole_zero, ?_, ?_, ?_, ?_⟩
  · have hcond : (decide (0 ≤ d.exponent) && decide (-(n : Int) ≤ 13)) = false := by
      simp only [Bool.and_eq_false_iff, decide_eq_false_iff_not]
      exact .inl (by omega)
    have hcond' : (decide (-5 ≤ -(n : Int)) && decide (-(n : Int) ≤ 13)) = true := by
      simp only [Bool.and_eq_true, decide_eq_true_eq]
      omega
    rw [Decimal.dataText, if_neg hzero]
    dsimp only
    have hexponent : ¬0 ≤ d.exponent := by omega
    have hcount : ¬0 < -(n : Int) := by omega
    rw [hn, hcond, hcond', if_neg Bool.false_ne_true, if_pos rfl, Decimal.positionalDigits, if_neg hexponent, hn, if_neg hcount, Int.neg_neg, Int.toNat_natCast]
    obtain ⟨e, fraction, hfraction⟩ := List.exists_cons_of_ne_nil
      (List.append_ne_nil_of_right_ne_nil (List.replicate n '0') (Nat.toDigits_ne_nil (b := 10) (n := d.digits)))
    rw [hfraction]
    simp [fractionText, exponentText, ← hfraction]
  · intro c hc
    rcases List.mem_append.1 hc with h | h
    · rw [List.eq_of_mem_replicate h]
      rfl
    · exact hdigit c h
  · rw [hreread, ← List.append_assoc, show ['0'] ++ List.replicate n '0' = List.replicate (n + 1) '0' from rfl,
      digitsNat_zeros_append, hdigits]
  · rw [hreread, List.length_append, List.length_replicate]
    simp only [Option.getD_none]
    omega
  · rw [List.isEmpty_eq_false_iff.2 (by simp)]
    rfl

theorem parts_scientific (hzero : d.digits ≠ 0) {c : Char} {more : List Char}
    (htext : Nat.toDigits 10 d.digits = c :: more)
    (hcount : (Nat.toDigits 10 d.digits).length + d.exponent < -5 ∨
      13 < (Nat.toDigits 10 d.digits).length + d.exponent) :
    Parts d [c] more (some ((Nat.toDigits 10 d.digits).length + d.exponent - 1)) := by
  have hreread : d.reread = d := by
    have hlong : ¬(0 ≤ d.exponent ∧ Decimal.digitCount d.digits + d.exponent ≤ 13) := by
      unfold Decimal.digitCount
      omega
    rw [Decimal.reread, if_neg hzero, if_neg hlong]
  have hdigits := digitsNat_toDigits d.digits
  have hdigit : ∀ e ∈ Nat.toDigits 10 d.digits, e.isDigit = true := fun e he => isDigit_of_mem_toDigits he
  rw [htext] at hdigits hdigit hcount ⊢
  refine ⟨?_, ⟨?_, by simp, fun h => ?_⟩, fun e he => hdigit e (List.mem_cons_of_mem c he), ?_, ?_, ?_⟩
  · have hcond : (decide (0 ≤ d.exponent) && decide (((c :: more).length : Int) + d.exponent ≤ 13)) = false := by
      simp only [Bool.and_eq_false_iff, decide_eq_false_iff_not]
      omega
    have hcond' : (decide (-5 ≤ ((c :: more).length : Int) + d.exponent) &&
        decide (((c :: more).length : Int) + d.exponent ≤ 13)) = false := by
      simp only [Bool.and_eq_false_iff, decide_eq_false_iff_not]
      omega
    rw [Decimal.dataText, if_neg hzero]
    dsimp only
    rw [htext, hcond, hcond', if_neg Bool.false_ne_true, if_neg Bool.false_ne_true]
    cases more <;> simp [fractionText, exponentText]
  · intro e he
    rw [List.mem_singleton.1 he]
    exact hdigit c List.mem_cons_self
  · rw [List.head?_cons, Option.some.injEq] at h
    rw [h]
  · rw [hreread]
    exact hdigits
  · rw [hreread, List.length_cons]
    simp only [Option.getD_some]
    omega
  · simp

end Parts

/-- A decimal has such parts.  There is a case for each way in which it is written. -/
theorem exists_parts (d : Decimal) : ∃ whole fraction exponent, Parts d whole fraction exponent := by
  by_cases hzero : d.digits = 0
  · exact ⟨_, _, _, parts_zero hzero⟩
  by_cases hsmall : (Nat.toDigits 10 d.digits).length + d.exponent < -5 ∨
      13 < (Nat.toDigits 10 d.digits).length + d.exponent
  · obtain ⟨c, more, htext, -⟩ := toDigits_eq_cons hzero
    exact ⟨_, _, _, parts_scientific hzero htext hsmall⟩
  rw [not_or, Int.not_lt, Int.not_lt] at hsmall
  by_cases hexponent : 0 ≤ d.exponent
  · exact ⟨_, _, _, parts_integer hzero hexponent hsmall.2⟩
  by_cases hpoint : 0 < (Nat.toDigits 10 d.digits).length + d.exponent
  · exact ⟨_, _, _, parts_point hzero (by omega) hpoint hsmall.2⟩
  · exact ⟨_, _, _, parts_small hzero (by omega) hsmall.1⟩

theorem readNumber?_dataText (d : Decimal) {rest : List Char} (h : Ends rest) :
    readNumber? (d.dataText ++ rest) = some (⟨d.reread, false⟩, rest) := by
  obtain ⟨whole, fraction, exponent, hparts⟩ := exists_parts d
  rw [hparts.text, readNumber?_parts d.negative hparts.isWhole hparts.digit exponent h, hparts.value,
    hparts.power, hparts.fractional, ← d.reread_negative]

end Json

end Consolidation
