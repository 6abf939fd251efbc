/-
# `Proofs.Python.Spelling` — a source is spelled by its tokens

The lexer goes over a source in steps, some of which find a token and some of which take what only separates tokens.
`Spelled` says what comes of it without the steps: the text is that of the tokens, each behind a gap, and the modes change
with the tokens alone (`Lexeme`).  `spelled_tokens` says that the tokens of a source spell it.

What a step does is said once (`outcome_step`).  Where code is read, a gap on one line that a token follows holds nothing
but blanks: what else separates tokens there reaches up to the end of a line.

The induction is on the steps of the lexer, and one invariant goes with it (`Ready`): what is left of the source is what
stands behind the place at which the lexer is, the last token has ended before it, and there is code below all other
modes.  A step comes out in one of these ways (`Outcome`):

| mode | what stands at the front |
| :-- | :-- |
| code | blanks, a comment, a continuation, a line end, or a token (`outcome_code`) |
| text of a formatted string | a piece of text, the start of a hole, or the closing quotes (`outcome_text`) |
| format of a hole | a piece of it, a hole inside it, or its end (`outcome_format`) |

Rows come along with places: behind the end of a logical line a lower row is reached (`Spelled.row_lt`), and tokens come
in the order of the source (`Spelled.pairwise`).
-/
import Mathlib.Data.List.TakeWhile
import Consolidation.Python.Lexer
import Consolidation.Python.StringLiteral

namespace Consolidation.Python

/-! ## Places -/

namespace Place

theorem after_append (p : Place) (s t : List Char) : p.after (s ++ t) = (p.after s).after t :=
  List.foldl_append

theorem after_cons (p : Place) (c : Char) (s : List Char) : p.after (c :: s) = (p.next c).after s := rfl

theorem offset_next (p : Place) (c : Char) : (p.next c).offset = p.offset + 1 := by
  rw [next]
  split <;> rfl

theorem offset_after (p : Place) (s : List Char) : (p.after s).offset = p.offset + s.length := by
  induction s generalizing p with
  | nil => rfl
  | cons c s ih =>
    rw [after_cons, ih, offset_next, List.length_cons]
    omega

theorem row_after (p : Place) (s : List Char) : (p.after s).row = p.row + s.count '\n' := by
  induction s generalizing p with
  | nil => rfl
  | cons c s ih =>
    rw [after_cons, ih, next, List.count_cons]
    split
    · show p.row + 1 + _ = _
      omega
    · rfl

theorem row_le_after (p : Place) (s : List Char) : p.row ≤ (p.after s).row := by
  rw [row_after]
  exact Nat.le_add_right _ _

end Place

namespace Lexer

/-! ## Modes -/

/-- Is there code below all other modes? -/
def Grounded (modes : List Mode) : Prop := ∃ depth, modes.getLast? = some (.code depth)

theorem grounded_cons {m : Mode} {outer : List Mode} (h : Grounded outer) : Grounded (m :: outer) := by
  obtain ⟨depth, h⟩ := h
  refine ⟨depth, ?_⟩
  cases outer with
  | nil => cases h
  | cons => rwa [List.getLast?_cons_cons]

theorem grounded_of_cons {m : Mode} {outer : List Mode} (hm : ∀ depth, m ≠ .code depth) (h : Grounded (m :: outer)) :
    Grounded outer := by
  obtain ⟨depth, h⟩ := h
  cases outer with
  | nil => exact absurd (Option.some.inj h) (hm depth)
  | cons m' outer => exact ⟨depth, by rwa [List.getLast?_cons_cons] at h⟩

theorem grounded_code (depth depth' : Nat) {outer : List Mode} (h : Grounded (.code depth :: outer)) :
    Grounded (.code depth' :: outer) := by
  cases outer with
  | nil => exact ⟨depth', rfl⟩
  | cons m outer =>
    obtain ⟨bottom, h⟩ := h
    exact grounded_cons ⟨bottom, by rwa [List.getLast?_cons_cons] at h⟩

def opensBracket (sign : String) : Bool := sign == "(" || sign == "[" || sign == "\x7b"

def closesBracket (sign : String) : Bool := sign == ")" || sign == "]" || sign == "\x7d"

/-- The number of open brackets behind a sign. -/
def depthBehind (depth : Nat) (sign : String) : Nat :=
  if opensBracket sign then depth + 1 else if closesBracket sign then depth - 1 else depth

/-! ## The texts of tokens -/

def isNumberChar (c : Char) : Bool :=
  ('0' ≤ c && c ≤ '9') || ('a' ≤ c && c ≤ 'z') || ('A' ≤ c && c ≤ 'Z') || ['_', '.', '+', '-'].contains c

/-- The quotes on either side of a literal. -/
def quotesOf (quote : Char) (triple : Bool) : List Char := if triple then [quote, quote, quote] else [quote]

/-- Prefix letters, and something between quotes. -/
def IsLiteral (text : List Char) : Prop :=
  ∃ letters quote triple inner, letters.all isPrefixLetter = true ∧ isQuote quote = true ∧
    text = letters ++ (quotesOf quote triple ++ (inner ++ quotesOf quote triple)) ∧
    (triple = false → inner.head? ≠ some quote)

/-- The tokens that may be found in some modes, with what follows them and the modes behind them. -/
inductive Lexeme : List Mode → TokenKind → List Char → List Char → List Mode → Prop
  | name {depth : Nat} {outer : List Mode} {text behind : List Char} (hall : text.all isIdentChar = true)
      (hmax : (behind.head?.map isIdentChar).getD false = false) :
      Lexeme (.code depth :: outer) .name text behind (.code depth :: outer)
  | number {depth : Nat} {outer : List Mode} {text behind : List Char} (hall : text.all isNumberChar = true) :
      Lexeme (.code depth :: outer) .number text behind (.code depth :: outer)
  | string {depth : Nat} {outer : List Mode} {text behind : List Char} (hliteral : IsLiteral text) :
      Lexeme (.code depth :: outer) .string text behind (.code depth :: outer)
  | sign {depth : Nat} {outer : List Mode} {sign : String} {behind : List Char} (hsign : sign ∈ signs) :
      Lexeme (.code depth :: outer) .sign sign.toList behind (.code (depthBehind depth sign) :: outer)
  | formatOpen {depth : Nat} {outer : List Mode} {text behind : List Char} (quote : Char) (triple raw : Bool) :
      Lexeme (.code depth :: outer) .formatOpen text behind (.text quote triple raw :: .code depth :: outer)
  | formatClose {quote : Char} {triple raw : Bool} {outer : List Mode} {text behind : List Char} :
      Lexeme (.text quote triple raw :: outer) .formatClose text behind outer
  | holeOpen {m : Mode} {outer : List Mode} {behind : List Char} (hm : ∀ depth, m ≠ .code depth) :
      Lexeme (m :: outer) .holeOpen ['\x7b'] behind (.code 0 :: m :: outer)
  | conversion {outer : List Mode} {text behind : List Char} (houter : outer ≠ []) :
      Lexeme (.code 0 :: outer) .conversion text behind (.code 0 :: outer)
  | holeColon {outer : List Mode} {behind : List Char} (houter : outer ≠ []) :
      Lexeme (.code 0 :: outer) .sign [':'] behind (.format :: outer)
  | holeClose {outer : List Mode} {behind : List Char} (houter : outer ≠ []) :
      Lexeme (.code 0 :: outer) .holeClose ['\x7d'] behind outer
  | formattedHoleClose {outer : List Mode} {behind : List Char} :
      Lexeme (.format :: outer) .holeClose ['\x7d'] behind outer
  | invalid {modes modes' : List Mode} {text behind : List Char} (hground : Grounded modes → Grounded modes') :
      Lexeme modes .invalid text behind modes'

theorem Lexeme.grounded {modes modes' : List Mode} {kind : TokenKind} {text behind : List Char}
    (h : Lexeme modes kind text behind modes') (hground : Grounded modes) : Grounded modes' := by
  have hhole {outer : List Mode} (houter : outer ≠ []) (h : Grounded (.code 0 :: outer)) : Grounded outer := by
    obtain ⟨m, outer, rfl⟩ := List.exists_cons_of_ne_nil houter
    obtain ⟨bottom, h⟩ := h
    exact ⟨bottom, by rwa [List.getLast?_cons_cons] at h⟩
  cases h with
  | name => exact hground
  | number => exact hground
  | string => exact hground
  | sign => exact grounded_code _ _ hground
  | formatOpen => exact grounded_cons hground
  | formatClose => exact grounded_of_cons (fun _ => Mode.noConfusion) hground
  | holeOpen => exact grounded_cons hground
  | conversion => exact hground
  | holeColon houter => exact grounded_cons (hhole houter hground)
  | holeClose houter => exact hhole houter hground
  | formattedHoleClose => exact grounded_of_cons (fun _ => Mode.noConfusion) hground
  | invalid h => exact h hground

/-! ### Numbers -/

section Numbers

variable {s : List Char}

/-- Does a text start with so many characters of a number? -/
def StartsNumber (n : Nat) (s : List Char) : Prop := ∀ c ∈ s.take n, isNumberChar c = true

theorem startsNumber_zero (s : List Char) : StartsNumber 0 s := fun _ h => by cases h

theorem startsNumber_succ {n : Nat} {c : Char} (hc : isNumberChar c = true) (h : StartsNumber n s) :
    StartsNumber (n + 1) (c :: s) := by
  intro d hd
  rw [List.take_succ_cons] at hd
  rcases List.mem_cons.1 hd with rfl | hd
  · exact hc
  · exact h d hd

theorem startsNumber_add {m n : Nat} (hm : StartsNumber m s) (hn : StartsNumber n (s.drop m)) :
    StartsNumber (m + n) s := by
  intro c hc
  rw [List.take_add, List.mem_append] at hc
  exact hc.elim (hm c) (hn c)

theorem isNumberChar_of_isHexDigit {c : Char} (h : isHexDigit c = true) : isNumberChar c = true := by
  simp only [isHexDigit, Char.isDigit, Bool.or_eq_true, Bool.and_eq_true, decide_eq_true_eq, ge_iff_le,
    Char.le_def, UInt32.le_iff_toNat_le] at h
  simp only [isNumberChar, Bool.or_eq_true, Bool.and_eq_true, decide_eq_true_eq, Char.le_def, UInt32.le_iff_toNat_le]
  have hf : 'f'.val.toNat ≤ 'z'.val.toNat := by decide
  have hF : 'F'.val.toNat ≤ 'Z'.val.toNat := by decide
  omega

theorem isNumberChar_of_isDigit {c : Char} (h : c.isDigit = true) : isNumberChar c = true :=
  isNumberChar_of_isHexDigit (by rw [isHexDigit, h, Bool.true_or, Bool.true_or])

theorem startsNumber_digitRun {isDigit : Char → Bool} (hdigit : ∀ c, isDigit c = true → isNumberChar c = true)
    (trailing : Bool) (s : List Char) : StartsNumber (digitRun isDigit trailing s) s := by
  have hlow : isNumberChar '_' = true := rfl
  induction s with
  | nil => exact startsNumber_zero _
  | cons c rest ih =>
    unfold digitRun
    split
    · next hc =>
      rw [Nat.add_comm]
      exact startsNumber_succ (hdigit c hc) ih
    · split
      · next hc =>
        obtain rfl := beq_iff_eq.1 hc
        have hone : StartsNumber (if trailing then 1 else 0) ('_' :: rest) := by
          split
          · exact startsNumber_succ hlow (startsNumber_zero _)
          · exact startsNumber_zero _
        split
        · split
          · rw [Nat.add_comm]
            exact startsNumber_succ hlow ih
          · exact hone
        · exact hone
      · exact startsNumber_zero _

theorem startsNumber_suffixLength {letters : List Char} (hletters : ∀ c ∈ letters, isNumberChar c = true)
    (s : List Char) : StartsNumber (suffixLength letters s) s := by
  unfold suffixLength
  split
  · split
    · next hc => exact startsNumber_succ (hletters _ (List.contains_iff_mem.1 hc)) (startsNumber_zero _)
    · exact startsNumber_zero _
  · exact startsNumber_zero _

theorem startsNumber_exponent {c : Char} {rest : List Char} (hc : isNumberChar c = true) {n : Nat}
    (hn : StartsNumber n rest) {d : Char} {digits : List Char} (hdrop : rest.drop n = d :: digits) :
    StartsNumber (1 + n + digitRun Char.isDigit true (d :: digits)) (c :: rest) := by
  have hdigits := startsNumber_digitRun (fun c => isNumberChar_of_isDigit (c := c)) true (d :: digits)
  rw [← hdrop] at hdigits ⊢
  rw [Nat.add_assoc, Nat.add_comm 1]
  exact startsNumber_succ hc (startsNumber_add hn hdigits)

theorem startsNumber_exponentLength (s : List Char) : StartsNumber (exponentLength s) s := by
  unfold exponentLength
  split
  · next c rest =>
    split
    · next hc =>
      have hletter : isNumberChar c = true := by
        rw [Bool.or_eq_true, beq_iff_eq, beq_iff_eq] at hc
        rcases hc with rfl | rfl <;> rfl
      simp only
      split
      · next d digits hdrop =>
        split
        · refine startsNumber_exponent hletter ?_ hdrop
          split
          · exact startsNumber_succ rfl (startsNumber_zero _)
          · exact startsNumber_succ rfl (startsNumber_zero _)
          · exact startsNumber_zero _
        · exact startsNumber_zero _
      · exact startsNumber_zero _
    · exact startsNumber_zero _
  · exact startsNumber_zero _

theorem startsNumber_basedLength {isDigit : Char → Bool} (hdigit : ∀ c, isDigit c = true → isNumberChar c = true)
    {zero base : Char} (hzero : isNumberChar zero = true) (hbase : isNumberChar base = true) (rest : List Char) :
    StartsNumber (basedLength isDigit rest) (zero :: base :: rest) := by
  have hrun := startsNumber_digitRun hdigit false rest
  simp only [basedLength]
  generalize digitRun isDigit false rest = n at hrun ⊢
  split
  · exact startsNumber_succ hzero (startsNumber_zero _)
  · have hsuffix : StartsNumber (suffixLength ['L', 'l'] (rest.drop n)) (rest.drop n) :=
      startsNumber_suffixLength (by decide) _
    rw [Nat.add_assoc, Nat.add_comm 2]
    exact startsNumber_succ hzero (startsNumber_succ hbase (startsNumber_add hrun hsuffix))

theorem startsNumber_parts {a b c d : Nat} (ha : StartsNumber a s) (hb : StartsNumber b (s.drop a))
    (hc : StartsNumber c ((s.drop a).drop b)) (hd : StartsNumber d (((s.drop a).drop b).drop c)) :
    StartsNumber (if a + b == 0 then 0 else a + b + c + d) s := by
  split
  · exact startsNumber_zero _
  · rw [List.drop_drop] at hc
    rw [List.drop_drop, List.drop_drop, ← Nat.add_assoc] at hd
    exact startsNumber_add (startsNumber_add (startsNumber_add ha hb) hc) hd

theorem startsNumber_fraction (whole : Nat) (rest : List Char) :
    StartsNumber (match rest with
      | '.' :: d :: more =>
        if d.isDigit then 1 + digitRun Char.isDigit true (d :: more) else if whole == 0 then 0 else 1
      | ['.'] => if whole == 0 then 0 else 1
      | _ => 0) rest := by
  have hpoint : isNumberChar '.' = true := rfl
  split
  · split
    · rw [Nat.add_comm]
      exact startsNumber_succ hpoint (startsNumber_digitRun (fun _ => isNumberChar_of_isDigit) true _)
    · split
      · exact startsNumber_zero _
      · exact startsNumber_succ hpoint (startsNumber_zero _)
  · split
    · exact startsNumber_zero _
    · exact startsNumber_succ hpoint (startsNumber_zero _)
  · exact startsNumber_zero _

theorem startsNumber_decimalLength (s : List Char) : StartsNumber (decimalLength s) s := by
  unfold decimalLength
  extract_lets whole rest fraction behind exponent last suffix
  have hwhole : StartsNumber whole s := by
    unfold whole
    split
    · exact startsNumber_zero _
    · exact startsNumber_digitRun (fun _ => isNumberChar_of_isDigit) true _
  have hfraction : StartsNumber fraction rest := startsNumber_fraction whole rest
  refine startsNumber_parts hwhole hfraction (startsNumber_exponentLength _) ?_
  show StartsNumber suffix last
  unfold suffix
  split
  · exact startsNumber_suffixLength (by decide) _
  · exact startsNumber_suffixLength (by decide) _

theorem startsNumber_numberLength (s : List Char) : StartsNumber (numberLength s) s := by
  have hbase {c : Char} {small capital : Char} (hs : isNumberChar small = true) (hc : isNumberChar capital = true)
      (h : (c == small || c == capital) = true) : isNumberChar c = true := by
    rw [Bool.or_eq_true, beq_iff_eq, beq_iff_eq] at h
    rcases h with rfl | rfl
    · exact hs
    · exact hc
  have hoctal (c : Char) (h : isOctalDigit c = true) : isNumberChar c = true := by
    refine isNumberChar_of_isDigit ?_
    simp only [isOctalDigit, Char.isDigit, Bool.and_eq_true, decide_eq_true_eq, ge_iff_le, Char.le_def,
      UInt32.le_iff_toNat_le] at h ⊢
    have h7 : '7'.val.toNat ≤ '9'.val.toNat := by decide
    omega
  have hbinary (c : Char) (h : isBinaryDigit c = true) : isNumberChar c = true := hbase rfl rfl h
  unfold numberLength
  split
  · split
    · next h => exact startsNumber_basedLength (fun _ => isNumberChar_of_isHexDigit) rfl (hbase rfl rfl h) _
    · split
      · next h => exact startsNumber_basedLength hoctal rfl (hbase rfl rfl h) _
      · split
        · next h => exact startsNumber_basedLength hbinary rfl (hbase rfl rfl h) _
        · exact startsNumber_decimalLength _
  · exact startsNumber_decimalLength _

end Numbers

/-! ### Literals -/

section Literals

theorem quote_ne_backslash {quote : Char} (h : isQuote quote = true) : quote ≠ '\\' := by
  rintro rfl
  cases h

theorem take_closingLength {quote : Char} {triple : Bool} {s : List Char} (h : closingLength quote triple s ≠ 0) :
    s.take (closingLength quote triple s) = quotesOf quote triple := by
  cases triple with
  | true =>
    simp only [closingLength, if_true] at h ⊢
    split at h
    · next hprefix =>
      rw [if_pos hprefix]
      exact (List.prefix_iff_eq_take.1 (List.isPrefixOf_iff_prefix.1 hprefix)).symm
    · exact absurd rfl h
  | false =>
    simp only [closingLength, Bool.false_eq_true, if_false] at h ⊢
    split at h
    · next hprefix =>
      rw [if_pos hprefix]
      exact (List.prefix_iff_eq_take.1 (List.isPrefixOf_iff_prefix.1 hprefix)).symm
    · exact absurd rfl h

/-- A string goes up to its closing quotes, and one of one line does not start with another quote of its own. -/
theorem take_bodyLength? {quote : Char} (hquote : quote ≠ '\\') {triple raw : Bool} {skip n : Nat} {s : List Char}
    (h : bodyLength? quote triple raw skip s = some n) :
    ∃ inner, s.take n = inner ++ quotesOf quote triple ∧
      (triple = false → skip = 0 → inner.head? ≠ some quote) := by
  induction s generalizing skip n with
  | nil =>
    cases skip with
    | zero => cases h
    | succ skip => cases h
  | cons c rest ih =>
    -- a character that is not the first of the closing quotes
    have hstep {skip' m : Nat} (hm : bodyLength? quote triple raw skip' rest = some m) :
        ∃ inner, (c :: rest).take (m + 1) = c :: inner ++ quotesOf quote triple := by
      obtain ⟨inner, htake, -⟩ := ih hm
      exact ⟨inner, by rw [List.take_succ_cons, htake]; rfl⟩
    cases skip with
    | succ skip =>
      obtain ⟨m, hm, rfl⟩ := Option.map_eq_some_iff.1 h
      obtain ⟨inner, htake⟩ := hstep hm
      exact ⟨_, htake, fun _ h => by cases h⟩
    | zero =>
      rw [bodyLength?] at h
      split at h
      · next hc =>
        obtain rfl := beq_iff_eq.1 hc
        obtain ⟨m, hm, rfl⟩ := Option.map_eq_some_iff.1 h
        obtain ⟨inner, htake⟩ := hstep hm
        exact ⟨_, htake, fun _ _ h => hquote (Option.some.inj h).symm⟩
      · split at h
        · next hclosing =>
          cases h
          exact ⟨[], take_closingLength (by simpa using hclosing), fun _ _ h => by cases h⟩
        · next hclosing =>
          split at h
          · cases h
          · obtain ⟨m, hm, rfl⟩ := Option.map_eq_some_iff.1 h
            obtain ⟨inner, htake⟩ := hstep hm
            refine ⟨_, htake, fun htriple _ h => hclosing ?_⟩
            obtain rfl := Option.some.inj h
            rw [htriple, closingLength]
            simp

theorem opening?_eq_some {s : List Char} {o : Opening} (h : opening? s = some o) :
    ∃ letters behind, letters.all isPrefixLetter = true ∧ isQuote o.quote = true ∧
      s = letters ++ (quotesOf o.quote o.triple ++ behind) ∧
      o.length = (letters ++ quotesOf o.quote o.triple).length := by
  have hletters : (s.takeWhile isPrefixLetter).all isPrefixLetter = true :=
    List.all_eq_true.2 fun c hc => List.mem_takeWhile_imp hc
  have hsplit : s = s.takeWhile isPrefixLetter ++ s.drop (s.takeWhile isPrefixLetter).length :=
    (List.prefix_iff_eq_append.1 (List.takeWhile_prefix isPrefixLetter)).symm
  simp only [opening?] at h
  generalize s.takeWhile isPrefixLetter = letters at h hletters hsplit
  split at h
  · next q rest hrest =>
    rw [hrest] at hsplit
    split at h
    · next hq =>
      have hquote : isQuote q = true := by rwa [isQuote, Bool.or_comm]
      split at h
      · next htriple =>
        cases h
        obtain ⟨behind, rfl⟩ := List.isPrefixOf_iff_prefix.1 htriple
        exact ⟨letters, behind, hletters, hquote, hsplit, by rw [List.length_append]; rfl⟩
      · cases h
        exact ⟨letters, rest, hletters, hquote, hsplit, by rw [List.length_append]; rfl⟩
    · cases h
  · cases h

end Literals

/-! ### Names -/

section Names

open Text

theorem exists_run_of_contains {set : CharSet} {c : Char} (h : set.contains c = true) :
    ∃ run ∈ set.runs, run.first ≤ c.toNat ∧ c.toNat ≤ run.last := by
  rw [CharSet.contains, CharSet.containsCode, lastAtOrBelow] at h
  generalize countAtOrBelow _ _ _ _ _ _ = n at h
  cases n with
  | zero => cases h
  | succ k =>
    cases hrun : set.runs[k]? with
    | none => simp [hrun] at h
    | some run =>
      simp only [hrun, CharRun.holds, Bool.and_eq_true, decide_eq_true_eq] at h
      exact ⟨run, Array.mem_of_getElem? hrun, h.1⟩

/-- The marks that do not continue a name. -/
def excludedCodes : List Nat :=
  [0x488, 0x489, 0x1ABE, 0x20DD, 0x20DE, 0x20DF, 0x20E0, 0x20E2, 0x20E3, 0x20E4, 0xA670, 0xA671, 0xA672]

theorem toNat_mem_excludedCodes {c : Char} (h : nameExcluded.contains c = true) : c.toNat ∈ excludedCodes := by
  obtain ⟨run, hrun, hfirst, hlast⟩ := exists_run_of_contains h
  simp only [nameExcluded, List.mem_toArray, List.mem_cons, List.not_mem_nil, or_false] at hrun
  simp only [excludedCodes, List.mem_cons, List.not_mem_nil, or_false]
  rcases hrun with rfl | rfl | rfl | rfl | rfl <;> simp only at hfirst hlast <;> omega

theorem isIdentChar_of_isIdentStart {c : Char} (h : isIdentStart c = true) : isIdentChar c = true := by
  rw [isIdentStart, Bool.or_eq_true] at h
  rw [isIdentChar, Bool.or_eq_true]
  refine h.imp_right fun hstart => ?_
  have hexcluded : nameExcluded.contains c = false := by
    by_contra hmark
    have hall : ∀ n ∈ excludedCodes, isNameStart (Char.ofNat n) = false := by decide +kernel
    have hnot := hall _ (toNat_mem_excludedCodes (by simpa using hmark))
    rw [Char.ofNat_toNat, hstart] at hnot
    cases hnot
  simp only [isNameContinue, hstart, hexcluded, Bool.true_or, Bool.not_false, Bool.and_self]

end Names

/-! ## Steps -/

/-- Blanks that only separate tokens. -/
def isGapBlank (c : Char) : Bool := (blankIndent? c 0).isSome

theorem isGapBlank_eq (c : Char) (indent : Nat) : isGapBlank c = (blankIndent? c indent).isSome := by
  simp only [isGapBlank, blankIndent?]
  repeat' split
  all_goals rfl

def InCode (modes : List Mode) : Prop := ∃ depth outer, modes = .code depth :: outer

/-- A gap, or the beginning of one, with what follows: on one line there are only blanks, unless the line ends there. -/
def GapTo (gap behind : List Char) : Prop :=
  (∀ c ∈ gap, isGapBlank c = true) ∨ '\n' ∈ gap ∨ behind = [] ∨ behind.head? = some '\n'

/-- What always holds between two steps, the last token having ended at `stop`. -/
structure Ready (stop : Place) (scan : Scan) : Prop where
  grounded : Grounded scan.modes
  le_last : stop.offset ≤ scan.last.offset
  last_le : scan.last.offset ≤ scan.place.offset
  row_le : stop.row ≤ scan.place.row
  begun : scan.begun = true → scan.ended = false
  ended : scan.ended = true →
    scan.modes = [.code 0] ∧ scan.last.offset < scan.place.offset ∧ stop.row < scan.place.row

/-- What a step may do with what stands at the front. -/
inductive Outcome (scan : Scan) (s : List Char) : Step → Prop
  | token {kind : TokenKind} {text behind : List Char} {modes : List Mode} (hs : s = text ++ behind) (hne : text ≠ [])
      (hcode : InCode scan.modes → s.head? ≠ some '\n') (hlexeme : Lexeme scan.modes kind text behind modes) :
      Outcome scan s (scan.token kind text modes)
  | gap {text behind : List Char} {scan' : Scan} (hs : s = text ++ behind) (hne : text ≠ [])
      (hplace : scan'.place = scan.place.after text) (hmodes : scan'.modes = scan.modes)
      (hcode : InCode scan.modes → GapTo text behind) (hready : ∀ stop, Ready stop scan → Ready stop scan') :
      Outcome scan s ⟨[], scan', text.length⟩

section Steps

variable {scan : Scan} {s : List Char} {c : Char} {rest : List Char}

theorem le_offset_after (p : Place) (text : List Char) : p.offset ≤ (p.after text).offset := by
  rw [Place.offset_after]
  exact Nat.le_add_right _ _

theorem Ready.move {stop : Place} {scan' : Scan} (h : Ready stop scan) (hmodes : scan'.modes = scan.modes)
    (hlast : scan'.last = scan.last) (hbegun : scan'.begun = scan.begun) (hended : scan'.ended = scan.ended)
    {text : List Char} (hplace : scan'.place = scan.place.after text) : Ready stop scan' := by
  have hoffset : scan.place.offset ≤ scan'.place.offset := hplace ▸ le_offset_after _ _
  have hrow : scan.place.row ≤ scan'.place.row := hplace ▸ Place.row_le_after _ _
  refine ⟨hmodes ▸ h.grounded, hlast ▸ h.le_last, ?_, Nat.le_trans h.row_le hrow, ?_, ?_⟩
  · rw [hlast]
    exact Nat.le_trans h.last_le hoffset
  · rw [hbegun, hended]
    exact h.begun
  · rw [hended, hmodes, hlast]
    intro h'
    obtain ⟨hcode, hlt, hbelow⟩ := h.ended h'
    exact ⟨hcode, Nat.lt_of_lt_of_le hlt hoffset, Nat.lt_of_lt_of_le hbelow hrow⟩

theorem outcome_skip {text : List Char} (hs : text <+: s) (hne : text ≠ [])
    (hcode : InCode scan.modes → ∀ behind, s = text ++ behind → GapTo text behind) : Outcome scan s (scan.skip text) := by
  obtain ⟨behind, rfl⟩ := hs
  exact .gap rfl hne rfl rfl (fun h => hcode h behind rfl) fun stop h =>
    h.move rfl rfl rfl rfl rfl

theorem take_ne_nil {n : Nat} (h : n ≠ 0) : (c :: rest).take n ≠ [] := by
  cases n with
  | zero => exact absurd rfl h
  | succ n => exact List.cons_ne_nil _ _

theorem outcome_skipText {text : List Char} (hs : text <+: s) (hne : text ≠ [])
    (hmodes : ¬InCode scan.modes) : Outcome scan s (scan.skip text) :=
  outcome_skip hs hne fun h => absurd h hmodes

theorem outcome_token {kind : TokenKind} {text : List Char} {modes : List Mode} (hs : text <+: s) (hne : text ≠ [])
    (hcode : InCode scan.modes → s.head? ≠ some '\n')
    (hlexeme : ∀ behind, s = text ++ behind → Lexeme scan.modes kind text behind modes) :
    Outcome scan s (scan.token kind text modes) := by
  obtain ⟨behind, rfl⟩ := hs
  exact .token rfl hne hcode (hlexeme behind rfl)

theorem outcome_lineEnd (hmodes : scan.modes = [.code 0]) : Outcome scan ('\n' :: rest) scan.lineEnd := by
  refine @Outcome.gap scan _ ['\n'] rest _ rfl (List.cons_ne_nil _ _) rfl rfl
    (fun _ => .inr (.inl (List.mem_singleton_self _))) fun stop h => ?_
  refine ⟨h.grounded, h.le_last, Nat.le_succ_of_le h.last_le, Nat.le_succ_of_le h.row_le,
    (fun hbegun => by cases hbegun), fun _ => ⟨hmodes, Nat.lt_succ_of_le h.last_le, Nat.lt_succ_of_le h.row_le⟩⟩

theorem gapTo_comment (s : List Char) {behind : List Char}
    (h : s = s.takeWhile (· != '\n') ++ behind) : GapTo (s.takeWhile (· != '\n')) behind := by
  have hbehind : behind = s.dropWhile (· != '\n') :=
    List.append_cancel_left (h.symm.trans List.takeWhile_append_dropWhile.symm)
  subst hbehind
  have hhead := List.head?_dropWhile_not (· != '\n') s
  cases hdrop : s.dropWhile (· != '\n') with
  | nil => exact .inr (.inr (.inl rfl))
  | cons d rest =>
    rw [hdrop] at hhead
    have hd : d = '\n' := by simpa using hhead
    exact .inr (.inr (.inr (congrArg some hd)))

theorem outcome_comment (s : List Char) (hne : s.takeWhile (· != '\n') ≠ []) :
    Outcome scan s (scan.comment (s.takeWhile (· != '\n'))) := by
  have hs : s = s.takeWhile (· != '\n') ++ s.dropWhile (· != '\n') := List.takeWhile_append_dropWhile.symm
  have hcode := gapTo_comment s hs
  generalize s.takeWhile (· != '\n') = text at hs hne hcode ⊢
  cases hbegun : scan.begun with
  | true =>
    rw [Scan.comment, hbegun, if_pos rfl]
    refine .gap hs hne rfl rfl (fun _ => hcode) fun stop h => ?_
    have hended := h.begun hbegun
    have hplace := Nat.le_trans h.last_le (le_offset_after scan.place text)
    refine ⟨h.grounded, Nat.le_trans h.le_last hplace, Nat.le_refl _,
      Nat.le_trans h.row_le (Place.row_le_after scan.place text), fun _ => hended, fun h' => ?_⟩
    exact absurd (hended.symm.trans h') Bool.false_ne_true
  | false =>
    rw [Scan.comment, hbegun, if_neg Bool.false_ne_true]
    refine .gap hs hne rfl rfl (fun _ => hcode) fun stop h => ?_
    exact h.move rfl rfl hbegun.symm rfl rfl

theorem outcome_string {depth : Nat} {outer : List Mode} {o : Opening} (hmodes : scan.modes = .code depth :: outer)
    (hs : s.head? ≠ some '\n') (ho : opening? s = some o) :
    Outcome scan s (stepString scan (.code depth :: outer) o s) := by
  obtain ⟨letters, body, hletters, hquote, rfl, hlength⟩ := opening?_eq_some ho
  have hne {n : Nat} (hn : o.length ≤ n) : (letters ++ (quotesOf o.quote o.triple ++ body)).take n ≠ [] := by
    have hquotes : 0 < (quotesOf o.quote o.triple).length := by
      unfold quotesOf
      split
      · exact Nat.zero_lt_succ _
      · exact Nat.zero_lt_succ _
    rw [← List.length_pos_iff, List.length_take]
    rw [hlength] at hn
    simp only [List.length_append] at hn ⊢
    omega
  have hopening : (letters ++ (quotesOf o.quote o.triple ++ body)).take o.length =
      letters ++ quotesOf o.quote o.triple := by
    rw [hlength, ← List.append_assoc, List.take_left]
  have hbody : (letters ++ (quotesOf o.quote o.triple ++ body)).drop o.length = body := by
    rw [hlength, ← List.append_assoc, List.drop_left]
  unfold stepString
  split
  · refine outcome_token (List.take_prefix _ _) (hne (Nat.le_refl _)) (fun _ => hs) fun behind _ => ?_
    rw [hmodes]
    exact .formatOpen _ _ _
  · split
    · next length hlen =>
      refine outcome_token (List.take_prefix _ _) (hne (Nat.le_add_right _ _)) (fun _ => hs) fun behind _ => ?_
      rw [hbody] at hlen
      obtain ⟨inner, htake, hinner⟩ := take_bodyLength? (quote_ne_backslash hquote) hlen
      rw [List.take_add, hopening, hbody, htake, hmodes]
      exact .string ⟨letters, _, _, inner, hletters, hquote, List.append_assoc .., fun h => hinner h rfl⟩
    · refine outcome_token (List.take_prefix _ _) (hne (Nat.le_refl _)) (fun _ => hs) fun behind _ => ?_
      rw [hmodes]
      exact .invalid fun h => h

theorem signAt?_eq_some {sign : String} (h : signAt? s = some sign) : sign ∈ signs ∧ sign.toList <+: s := by
  refine ⟨List.mem_of_find?_eq_some h, ?_⟩
  have hfound := List.find?_some h
  exact List.isPrefixOf_iff_prefix.1 hfound

theorem sign_ne_nil {sign : String} (h : sign ∈ signs) : sign.toList ≠ [] := by
  have hall : ∀ sign ∈ signs, sign.toList ≠ [] := by decide
  exact hall sign h

theorem outcome_sign {depth : Nat} {outer : List Mode} {sign : String} (hmodes : scan.modes = .code depth :: outer)
    (hs : s.head? ≠ some '\n') (hsign : signAt? s = some sign) : Outcome scan s (stepSign scan depth outer sign) := by
  obtain ⟨hmem, hprefix⟩ := signAt?_eq_some hsign
  have hstep : stepSign scan depth outer sign =
      scan.token .sign sign.toList (.code (depthBehind depth sign) :: outer) := by
    rw [stepSign, depthBehind]
    show (if opensBracket sign then _ else if closesBracket sign then _ else _) = _
    split
    · rfl
    · split
      · rfl
      · rfl
  rw [hstep]
  refine outcome_token hprefix (sign_ne_nil hmem) (fun _ => hs) fun behind _ => ?_
  rw [hmodes]
  exact .sign hmem

theorem outcome_hole {outer : List Mode} {step : Step} (hmodes : scan.modes = .code 0 :: outer) (houter : outer ≠ [])
    (hs : s.head? ≠ some '\n') (hstep : stepHole? scan outer s = some step) : Outcome scan s step := by
  unfold stepHole? at hstep
  split at hstep
  · next rest =>
    cases hstep
    refine outcome_token (List.prefix_append ['\x7d'] rest) (List.cons_ne_nil _ _) (fun _ => hs) fun behind _ => ?_
    rw [hmodes]
    exact .holeClose houter
  · next rest =>
    cases hstep
    refine outcome_token (List.prefix_append [':'] rest) (List.cons_ne_nil _ _) (fun _ => hs) fun behind _ => ?_
    rw [hmodes]
    exact .holeColon houter
  · next c rest =>
    split at hstep
    · cases hstep
    · cases hstep
      refine outcome_token ?_ (List.cons_ne_nil _ _) (fun _ => hs) fun behind _ => ?_
      · exact List.cons_prefix_cons.2 ⟨rfl, List.takeWhile_prefix _⟩
      · rw [hmodes]
        exact .conversion houter
  · cases hstep

theorem not_behind_takeWhile {p : Char → Bool} {behind : List Char} (h : s = s.takeWhile p ++ behind) :
    (behind.head?.map p).getD false = false := by
  have hbehind : behind = s.dropWhile p :=
    List.append_cancel_left (h.symm.trans List.takeWhile_append_dropWhile.symm)
  have hhead := List.head?_dropWhile_not p s
  rw [hbehind]
  cases hdrop : s.dropWhile p with
  | nil => rfl
  | cons d rest =>
    rw [hdrop] at hhead
    simpa using hhead

theorem gapTo_continuation (h : continuationLength s ≠ 0) (behind : List Char)
    (hs : s = s.take (continuationLength s) ++ behind) : GapTo (s.take (continuationLength s)) behind := by
  revert h hs
  unfold continuationLength
  split
  · exact fun _ _ => .inr (.inl (by simp))
  · exact fun _ _ => .inr (.inl (by simp))
  · intro _ hs
    have hnil : behind = [] := by simpa using hs.symm
    exact .inr (.inr (.inl hnil))
  · exact fun h => absurd rfl h

/-- A string, a word, a number, a sign, or nothing of the kind. -/
theorem outcome_lexeme {depth : Nat} {outer : List Mode} (hmodes : scan.modes = .code depth :: outer)
    (hhead : (c :: rest).head? ≠ some '\n') :
    Outcome scan (c :: rest)
      (match opening? (c :: rest) with
      | some o => stepString scan (.code depth :: outer) o (c :: rest)
      | none =>
        if isIdentStart c then scan.token .name ((c :: rest).takeWhile isIdentChar) (.code depth :: outer)
        else if numberLength (c :: rest) != 0 then
          scan.token .number ((c :: rest).take (numberLength (c :: rest))) (.code depth :: outer)
        else match signAt? (c :: rest) with
          | some sign => stepSign scan depth outer sign
          | none => scan.token .invalid [c] (.code depth :: outer)) := by
  split
  · next o ho => exact outcome_string hmodes hhead ho
  · split
    · next hstart =>
      refine outcome_token (List.takeWhile_prefix _) ?_ (fun _ => hhead) fun behind hbehind => ?_
      · rw [List.takeWhile_cons_of_pos (isIdentChar_of_isIdentStart hstart)]
        exact List.cons_ne_nil _ _
      · rw [hmodes]
        exact .name (List.all_eq_true.2 fun d hd => List.mem_takeWhile_imp hd) (not_behind_takeWhile hbehind)
    · split
      · next hnumber =>
        rw [bne_iff_ne] at hnumber
        refine outcome_token (List.take_prefix _ _) (take_ne_nil hnumber) (fun _ => hhead) fun behind _ => ?_
        rw [hmodes]
        exact .number (List.all_eq_true.2 (startsNumber_numberLength _))
      · split
        · next sign hsign => exact outcome_sign hmodes hhead hsign
        · refine outcome_token (List.prefix_append [c] rest) (List.cons_ne_nil _ _) (fun _ => hhead) fun behind _ => ?_
          rw [hmodes]
          exact .invalid fun h => h

theorem outcome_code {depth : Nat} {outer : List Mode} (hmodes : scan.modes = .code depth :: outer) :
    Outcome scan (c :: rest) (stepCode scan depth outer c rest) := by
  have hone : [c] <+: c :: rest := List.prefix_append [c] rest
  unfold stepCode
  split
  · next indent hblank =>
    refine @Outcome.gap scan _ [c] rest _ rfl (List.cons_ne_nil _ _) rfl rfl (fun _ => .inl ?_) fun stop h => ?_
    · intro d hd
      obtain rfl := List.mem_singleton.1 hd
      rw [isGapBlank_eq d scan.indent, hblank]
      rfl
    · exact h.move rfl rfl rfl rfl rfl
  · by_cases hnewline : c = '\n'
    · subst hnewline
      rw [if_pos (beq_self_eq_true _)]
      split
      · next hbottom =>
        rw [Bool.and_eq_true, beq_iff_eq, List.isEmpty_iff] at hbottom
        obtain ⟨rfl, rfl⟩ := hbottom
        exact outcome_lineEnd hmodes
      · exact outcome_skip hone (List.cons_ne_nil _ _) fun _ _ _ => .inr (.inl (List.mem_singleton_self _))
    · have hhead : (c :: rest).head? ≠ some '\n' := fun h => hnewline (Option.some.inj h)
      rw [if_neg (by simpa using hnewline)]
      by_cases hhash : c = '#'
      · rw [if_pos (by simpa using hhash)]
        have hne : (c :: rest).takeWhile (· != '\n') ≠ [] := by
          rw [List.takeWhile_cons_of_pos (by simpa using hnewline)]
          exact List.cons_ne_nil _ _
        split
        · exact outcome_comment _ hne
        · exact outcome_skip (List.takeWhile_prefix _) hne fun _ _ h => gapTo_comment _ h
      · rw [if_neg (by simpa using hhash)]
        by_cases hcontinuation : continuationLength (c :: rest) = 0
        · rw [if_neg (by simpa using hcontinuation)]
          cases hhole : (if (depth == 0 && !outer.isEmpty) = true then stepHole? scan outer (c :: rest) else none) with
          | none =>
            exact outcome_lexeme hmodes hhead
          | some step =>
            split at hhole
            · next hbottom =>
              rw [Bool.and_eq_true, beq_iff_eq, Bool.not_eq_true', List.isEmpty_eq_false_iff] at hbottom
              obtain ⟨rfl, houter⟩ := hbottom
              exact outcome_hole hmodes houter hhead hhole
            · cases hhole
        · rw [if_pos (by simpa using hcontinuation)]
          exact outcome_skip (List.take_prefix _ _) (take_ne_nil hcontinuation) fun _ =>
            gapTo_continuation hcontinuation

theorem outcome_text {quote : Char} {triple raw : Bool} {outer : List Mode}
    (hmodes : scan.modes = .text quote triple raw :: outer) :
    Outcome scan (c :: rest) (stepText scan quote triple raw outer c rest) := by
  have hone : [c] <+: c :: rest := List.prefix_append [c] rest
  have hcode : ¬InCode scan.modes := by
    rintro ⟨depth, outer', h⟩
    cases hmodes.symm.trans h
  have hhead : InCode scan.modes → (c :: rest).head? ≠ some '\n' := fun h => absurd h hcode
  -- a token that is out of place ends the string
  have hinvalid : Outcome scan (c :: rest) (scan.token .invalid [c] outer) := by
    refine outcome_token hone (List.cons_ne_nil _ _) hhead fun behind _ => ?_
    rw [hmodes]
    exact .invalid (grounded_of_cons fun _ => Mode.noConfusion)
  have hskip (n : Nat) (hn : n ≠ 0) : Outcome scan (c :: rest) (scan.skip ((c :: rest).take n)) :=
    outcome_skipText (List.take_prefix _ _) (take_ne_nil hn) hcode
  unfold stepText
  by_cases hopen : c = '\x7b'
  · subst hopen
    rw [if_pos (beq_self_eq_true _)]
    split
    · exact hskip 2 (by decide)
    · refine outcome_token hone (List.cons_ne_nil _ _) hhead fun behind _ => ?_
      rw [hmodes]
      exact .holeOpen fun _ => Mode.noConfusion
  · rw [if_neg (by simpa using hopen)]
    by_cases hclose : c = '\x7d'
    · subst hclose
      rw [if_pos (beq_self_eq_true _)]
      split
      · exact hskip 2 (by decide)
      · exact hinvalid
    · rw [if_neg (by simpa using hclose)]
      by_cases hescape : c = '\\'
      · subst hescape
        rw [if_pos (beq_self_eq_true _)]
        split
        · refine hskip _ ?_
          unfold rawEscapeLength
          repeat' split
          all_goals decide
        · split
          · -- an escape with a name goes up to the closing brace
            have hname : (('\\' :: rest).takeWhile (· != '\x7d') ++ (('\\' :: rest).dropWhile (· != '\x7d')).take 1) ++
                (('\\' :: rest).dropWhile (· != '\x7d')).drop 1 = '\\' :: rest := by
              rw [List.append_assoc, List.take_append_drop, List.takeWhile_append_dropWhile]
            refine outcome_skipText ⟨_, hname⟩ (List.append_ne_nil_of_left_ne_nil ?_ _) hcode
            rw [List.takeWhile_cons_of_pos rfl]
            exact List.cons_ne_nil _ _
          · split
            · exact hskip 1 (by decide)
            · exact hskip 2 (by decide)
      · rw [if_neg (by simpa using hescape)]
        by_cases hclosing : closingLength quote triple (c :: rest) = 0
        · rw [if_neg (by simpa using hclosing)]
          split
          · exact hinvalid
          · exact hskip 1 (by decide)
        · rw [if_pos (by simpa using hclosing)]
          refine outcome_token (List.take_prefix _ _) (take_ne_nil hclosing) hhead fun behind _ => ?_
          rw [hmodes]
          exact .formatClose

theorem outcome_format {outer : List Mode} (hmodes : scan.modes = .format :: outer) :
    Outcome scan (c :: rest) (stepFormat scan outer c) := by
  have hone : [c] <+: c :: rest := List.prefix_append [c] rest
  have hcode : ¬InCode scan.modes := by
    rintro ⟨depth, outer', h⟩
    cases hmodes.symm.trans h
  have hhead : InCode scan.modes → (c :: rest).head? ≠ some '\n' := fun h => absurd h hcode
  unfold stepFormat
  split
  · next hopen =>
    obtain rfl := beq_iff_eq.1 hopen
    refine outcome_token hone (List.cons_ne_nil _ _) hhead fun behind _ => ?_
    rw [hmodes]
    exact .holeOpen fun _ => Mode.noConfusion
  · split
    · next hclose =>
      obtain rfl := beq_iff_eq.1 hclose
      refine outcome_token hone (List.cons_ne_nil _ _) hhead fun behind _ => ?_
      rw [hmodes]
      exact .formattedHoleClose
    · split
      · refine outcome_token hone (List.cons_ne_nil _ _) hhead fun behind _ => ?_
        rw [hmodes]
        exact .invalid (grounded_of_cons fun _ => Mode.noConfusion)
      · exact outcome_skipText hone (List.cons_ne_nil _ _) hcode

/-- What a step does. -/
theorem outcome_step (hground : Grounded scan.modes) (c : Char) (rest : List Char) :
    Outcome scan (c :: rest) (step scan c rest) := by
  unfold step
  split
  · next hmodes => exact outcome_text hmodes
  · next hmodes => exact outcome_format hmodes
  · next hmodes => exact outcome_code hmodes
  · next hmodes =>
    rw [hmodes] at hground
    obtain ⟨depth, hdepth⟩ := hground
    cases hdepth

end Steps

/-! ## Whole sources -/

def IsLineEnd (t : Token) : Prop := ∃ comments indent, t.kind = .lineEnd comments indent

theorem Lexeme.not_lineEnd {modes modes' : List Mode} {t : Token} {text behind : List Char}
    (h : Lexeme modes t.kind text behind modes') : ¬IsLineEnd t := by
  rintro ⟨comments, indent, hkind⟩
  rw [hkind] at h
  cases h

/-- A token is found behind a gap that starts at some place. -/
structure Found (modes : List Mode) (place : Place) (gap : List Char) (t : Token) (behind : List Char)
    (modes' : List Mode) : Prop where
  gap_blank : InCode modes → '\n' ∉ gap → ∀ c ∈ gap, isGapBlank c = true
  ne_nil : t.text.toList ≠ []
  start : t.start = place.after gap
  stop : t.stop = t.start.after t.text.toList
  lexeme : Lexeme modes t.kind t.text.toList behind modes'

/-- The text from some place on is that of some tokens with gaps between them, the modes being known at the place. -/
inductive Spelled : List Mode → Place → List Char → List Token → Prop
  | finish {modes : List Mode} {place : Place} {gap : List Char} {ends : List Token}
      (hends : ends = [] ∨ ∃ e, ends = [e] ∧ IsLineEnd e ∧ e.text = "" ∧ place.offset ≤ e.start.offset ∧
        e.start.offset ≤ (place.after gap).offset) :
      Spelled modes place gap (ends ++ [⟨.finish, "", place.after gap, place.after gap⟩])
  | token {modes modes' : List Mode} {place : Place} {gap behind : List Char} {t : Token} {ends tokens : List Token}
      (hends : ends = [] ∨ modes = [.code 0] ∧ ∃ e, ends = [e] ∧ IsLineEnd e ∧ e.text = "" ∧
        place.offset ≤ e.start.offset ∧ e.start.offset < t.start.offset ∧ place.row < t.start.row) (hfound : Found modes place gap t behind modes')
      (hbehind : Spelled modes' t.stop behind tokens) :
      Spelled modes place (gap ++ (t.text.toList ++ behind)) (ends ++ t :: tokens)

theorem spelled_finish {scan : Scan} {gap : List Char} {stop : Place} (hplace : scan.place = stop.after gap)
    (hready : Ready stop scan) : Spelled scan.modes stop gap scan.finish := by
  rw [Scan.finish, hplace]
  refine .finish ?_
  unfold Scan.pendingLineEnd
  split
  · exact .inr ⟨_, rfl, ⟨_, _, rfl⟩, rfl, hready.le_last, hplace ▸ hready.last_le⟩
  · exact .inl rfl

theorem spelled_run {fuel : Nat} {scan : Scan} {s gap : List Char} {stop : Place} (hfuel : s.length ≤ fuel)
    (hplace : scan.place = stop.after gap) (hgap : InCode scan.modes → GapTo gap s) (hready : Ready stop scan) :
    Spelled scan.modes stop (gap ++ s) (run fuel scan s) := by
  -- the gap grows until a token is found, and then a new one starts behind it
  induction fuel generalizing scan s gap stop with
  | zero =>
    obtain rfl := List.length_eq_zero_iff.1 (Nat.le_zero.1 hfuel)
    rw [List.append_nil]
    exact spelled_finish hplace hready
  | succ fuel ih =>
    cases s with
    | nil =>
      rw [List.append_nil]
      exact spelled_finish hplace hready
    | cons c rest =>
      have houtcome := outcome_step hready.grounded c rest
      show Spelled scan.modes stop (gap ++ c :: rest)
        ((step scan c rest).found ++ run fuel (step scan c rest).scan (rest.drop ((step scan c rest).taken - 1)))
      generalize step scan c rest = r at houtcome
      have hdrop {text behind : List Char} (hs : c :: rest = text ++ behind) (hne : text ≠ []) :
          rest.drop (text.length - 1) = behind ∧ behind.length ≤ fuel := by
        obtain ⟨d, text, rfl⟩ := List.exists_cons_of_ne_nil hne
        obtain ⟨rfl, hrest⟩ := List.cons.inj hs
        rw [List.append_eq] at hrest
        subst hrest
        rw [List.length_cons, List.length_append] at hfuel
        exact ⟨List.drop_left, by omega⟩
      cases houtcome with
      | token hs hne hcode hlexeme =>
        next kind text behind modes =>
        obtain ⟨hbehind, hlength⟩ := hdrop hs hne
        have hready' : Ready (scan.place.after text) (scan.token kind text modes).scan :=
          ⟨hlexeme.grounded hready.grounded, Nat.le_refl _, Nat.le_refl _, Nat.le_refl _, fun _ => rfl,
            fun h => absurd h Bool.false_ne_true⟩
        have hrest := @ih (scan.token kind text modes).scan behind [] (scan.place.after text) hlength rfl
          (fun _ => .inl (List.forall_mem_nil _)) hready'
        have hfound : ∃ t : Token, t.kind = kind ∧ t.text.toList = text ∧ t.start = stop.after gap ∧
            t.stop = scan.place.after text ∧ (scan.token kind text modes).found ++
              run fuel (scan.token kind text modes).scan (rest.drop ((scan.token kind text modes).taken - 1)) =
            scan.pendingLineEnd scan.indent ++ t :: run fuel (scan.token kind text modes).scan behind :=
          ⟨⟨kind, String.ofList text, scan.place, scan.place.after text⟩, rfl, String.toList_ofList, hplace, rfl, by
            rw [← hbehind]
            exact List.append_assoc ..⟩
        obtain ⟨t, rfl, rfl, hstart, hstop, hfound⟩ := hfound
        rw [← hstop] at hrest
        rw [hfound, hs]
        refine .token ?_ ⟨?_, hne, hstart, ?_, hlexeme⟩ hrest
        · unfold Scan.pendingLineEnd
          split
          · next hended =>
            obtain ⟨hmodes, hlast, hrow⟩ := hready.ended hended
            rw [hplace, ← hstart] at hlast hrow
            exact .inr ⟨hmodes, _, rfl, ⟨_, _, rfl⟩, rfl, hready.le_last, hlast, hrow⟩
          · exact .inl rfl
        · intro hin hline
          rcases hgap hin with hall | hnewline | hnil | hhead
          · exact hall
          · exact absurd hnewline hline
          · cases hnil
          · exact absurd hhead (hcode hin)
        · rw [hstop, hplace, hstart]
      | gap hs hne hplace' hmodes hcode hready' =>
        next text behind scan' =>
        obtain ⟨hbehind, hlength⟩ := hdrop hs hne
        have hrest := @ih scan' behind (gap ++ text) stop hlength
          (by rw [hplace', hplace, Place.after_append])
          (fun hin => ?_) (hready' stop hready)
        · show Spelled scan.modes stop (gap ++ c :: rest) (run fuel scan' (rest.drop (text.length - 1)))
          rwa [hbehind, hs, ← List.append_assoc, ← hmodes]
        · rw [hmodes] at hin
          have hpiece := hcode hin
          rcases hgap hin with hall | hnewline | hnil | hhead
          · rcases hpiece with hall' | hnewline | hend
            · exact .inl fun d hd => (List.mem_append.1 hd).elim (hall d) (hall' d)
            · exact .inr (.inl (List.mem_append_right _ hnewline))
            · exact .inr (.inr hend)
          · exact .inr (.inl (List.mem_append_left _ hnewline))
          · cases hnil
          · -- what is taken starts with the end of the line
            obtain ⟨d, text, rfl⟩ := List.exists_cons_of_ne_nil hne
            obtain ⟨rfl, -⟩ := List.cons.inj hs
            obtain rfl : c = '\n' := Option.some.inj hhead
            exact .inr (.inl (List.mem_append_right _ List.mem_cons_self))

/-- A source is spelled by its tokens. -/
theorem spelled_tokens (source : List Char) : Spelled [.code 0] .start source (tokens source) := by
  have hready : Ready .start Scan.start :=
    ⟨⟨0, rfl⟩, Nat.le_refl _, Nat.le_refl _, Nat.le_refl _, fun h => absurd h Bool.false_ne_true,
      fun h => absurd h Bool.false_ne_true⟩
  have hrun := @spelled_run source.length Scan.start source [] .start (Nat.le_refl _) rfl
    (fun _ => .inl (List.forall_mem_nil _)) hready
  exact hrun

section Spelled

variable {modes : List Mode} {place : Place} {text : List Char} {t : Token} {tokens : List Token}

theorem Spelled.exists_found (h : Spelled modes place text (t :: tokens)) (ht : t.text ≠ "") :
    ∃ gap behind modes', text = gap ++ (t.text.toList ++ behind) ∧ Found modes place gap t behind modes' ∧
      Spelled modes' t.stop behind tokens := by
  generalize hall : t :: tokens = all at h
  cases h with
  | finish hends =>
    rcases hends with rfl | ⟨e, rfl, -, he, -, -⟩
    · obtain ⟨rfl, -⟩ := List.cons.inj hall
      exact absurd rfl ht
    · obtain ⟨rfl, -⟩ := List.cons.inj hall
      exact absurd he ht
  | token hends hfound hbehind =>
    rcases hends with rfl | ⟨-, e, rfl, -, he, -⟩
    · obtain ⟨rfl, rfl⟩ := List.cons.inj hall
      exact ⟨_, _, _, rfl, hfound, hbehind⟩
    · obtain ⟨rfl, -⟩ := List.cons.inj hall
      exact absurd he ht

theorem Found.text_ne {modes modes' : List Mode} {gap behind : List Char}
    (h : Found modes place gap t behind modes') : t.text ≠ "" := fun hempty => h.ne_nil (by rw [hempty]; rfl)

theorem Found.start_lt_stop {modes modes' : List Mode} {gap behind : List Char}
    (h : Found modes place gap t behind modes') : t.start.offset < t.stop.offset := by
  rw [h.stop, Place.offset_after]
  exact Nat.lt_add_of_pos_right (List.length_pos_iff.2 h.ne_nil)

theorem Found.place_behind {modes modes' : List Mode} {gap behind : List Char}
    (h : Found modes place gap t behind modes') : t.stop = place.after (gap ++ t.text.toList) := by
  rw [h.stop, h.start, Place.after_append]

/-- What is spelled from a token on.  At the start of a logical line the modes are those of the source's start. -/
theorem Spelled.suffix {before : List Token} (h : Spelled modes place text (before ++ t :: tokens)) (ht : t.text ≠ "") :
    ∃ modes' front rest, text = front ++ rest ∧ Spelled modes' (place.after front) rest (t :: tokens) ∧
      (before = [] → modes' = modes) ∧ ((∃ e, before.getLast? = some e ∧ IsLineEnd e) → modes' = [.code 0]) := by
  generalize hall : before ++ t :: tokens = all at h
  induction h generalizing before with
  | finish hends =>
    exfalso
    have hmem := hall ▸ List.mem_append_right before (List.mem_cons_self (a := t) (l := tokens))
    rcases List.mem_append.1 hmem with hmem | hmem
    · rcases hends with rfl | ⟨e, rfl, -, he, -, -⟩
      · cases hmem
      · obtain rfl := List.mem_singleton.1 hmem
        exact ht he
    · obtain rfl := List.mem_singleton.1 hmem
      exact ht rfl
  | @token modes modes₁ place gap behind t₁ ends tokens₁ hends hfound hbehind ih =>
    have hnext {before : List Token} (h : before ++ t :: tokens = t₁ :: tokens₁) :
        ∃ modes' front rest, gap ++ (t₁.text.toList ++ behind) = front ++ rest ∧
          Spelled modes' (place.after front) rest (t :: tokens) ∧ (before = [] → modes' = modes) ∧
          ((∃ e, before.getLast? = some e ∧ IsLineEnd e) → modes' = [.code 0]) := by
      cases before with
      | nil =>
        obtain ⟨rfl, rfl⟩ := List.cons.inj h
        exact ⟨modes, [], _, rfl, .token (.inl rfl) hfound hbehind, fun _ => rfl, fun ⟨_, h, _⟩ => by cases h⟩
      | cons b before =>
        obtain ⟨rfl, htail⟩ := List.cons.inj h
        obtain ⟨modes', front, rest, rfl, hrest, -, hline⟩ := ih htail
        refine ⟨modes', gap ++ (b.text.toList ++ front), rest, by simp only [List.append_assoc], ?_, (fun h => by cases h), ?_⟩
        · rwa [← List.append_assoc, Place.after_append, ← hfound.place_behind]
        · rintro ⟨e, he, hend⟩
          cases before with
          | nil =>
            obtain rfl := Option.some.inj he
            exact absurd hend hfound.lexeme.not_lineEnd
          | cons => exact hline ⟨e, by rwa [List.getLast?_cons_cons] at he, hend⟩
    rcases hends with rfl | ⟨hmodes, e, rfl, -, he, -⟩
    · exact hnext hall
    · cases before with
      | nil =>
        obtain ⟨rfl, -⟩ := List.cons.inj hall
        exact absurd he ht
      | cons b before =>
        obtain ⟨rfl, htail⟩ := List.cons.inj hall
        obtain ⟨modes', front, rest, htext, hrest, hnil, hline⟩ := hnext htail
        refine ⟨modes', front, rest, htext, hrest, (fun h => by cases h), ?_⟩
        rintro ⟨e, he', hend⟩
        cases before with
        | nil => exact (hnil rfl).trans hmodes
        | cons => exact hline ⟨e, by rwa [List.getLast?_cons_cons] at he', hend⟩

theorem Spelled.row_lt {before after : List Token} {e u : Token} (h : Spelled modes place text (before ++ e :: u :: after))
    (he : IsLineEnd e) (hu : u.text ≠ "") : place.row < u.start.row := by
  generalize hall : before ++ e :: u :: after = all at h
  induction h generalizing before with
  | finish hends =>
    exfalso
    have hmem := hall ▸ List.mem_append_right before (List.mem_cons_of_mem e (List.mem_cons_self (a := u) (l := after)))
    rcases List.mem_append.1 hmem with hmem | hmem
    · rcases hends with rfl | ⟨e₁, rfl, -, htext, -, -⟩
      · cases hmem
      · obtain rfl := List.mem_singleton.1 hmem
        exact hu htext
    · obtain rfl := List.mem_singleton.1 hmem
      exact hu rfl
  | @token modes modes₁ place gap behind t₁ ends tokens₁ hends hfound hbehind ih =>
    -- the line end stands behind a token
    have hnext {before : List Token} (h : before ++ e :: u :: after = t₁ :: tokens₁) : place.row < u.start.row := by
      cases before with
      | nil =>
        obtain ⟨rfl, -⟩ := List.cons.inj h
        exact absurd he hfound.lexeme.not_lineEnd
      | cons b before =>
        obtain ⟨rfl, htail⟩ := List.cons.inj h
        refine Nat.lt_of_le_of_lt ?_ (ih htail)
        rw [hfound.place_behind]
        exact Place.row_le_after _ _
    rcases hends with rfl | ⟨-, e₁, rfl, -, -, -, -, hrow⟩
    · exact hnext hall
    · cases before with
      | nil =>
        obtain ⟨-, htail⟩ := List.cons.inj hall
        obtain ⟨rfl, -⟩ := List.cons.inj htail
        exact hrow
      | cons b before => exact hnext (List.cons.inj hall).2

/-- Of two tokens with the end of a logical line between them the later one starts on a lower row. -/
theorem Spelled.row_lt_of_lineEnd {before between after : List Token} {e u : Token}
    (h : Spelled modes place text (before ++ t :: (between ++ e :: u :: after))) (ht : t.text ≠ "") (he : IsLineEnd e)
    (hu : u.text ≠ "") : t.start.row < u.start.row := by
  obtain ⟨modes₁, front, rest, -, hrest, -⟩ := h.suffix ht
  obtain ⟨gap, behind, modes₂, -, hfound, hbehind⟩ := hrest.exists_found ht
  refine Nat.lt_of_le_of_lt ?_ (hbehind.row_lt he hu)
  rw [hfound.stop]
  exact Place.row_le_after _ _

structure Precedes (t u : Token) : Prop where
  start_le : t.start.offset ≤ u.start.offset
  start_lt : u.text ≠ "" → t.start.offset < u.start.offset
  stop_le : t.text ≠ "" → t.stop.offset ≤ u.start.offset

theorem Spelled.pairwise (h : Spelled modes place text tokens) :
    (∀ t ∈ tokens, place.offset ≤ t.start.offset) ∧ tokens.Pairwise Precedes := by
  induction h with
  | @finish modes place gap ends hends =>
    have hplace : place.offset ≤ (place.after gap).offset := le_offset_after _ _
    rcases hends with rfl | ⟨e, rfl, -, he, hlow, hhigh⟩
    · exact ⟨List.forall_mem_singleton.2 hplace, List.pairwise_singleton _ _⟩
    · exact ⟨List.forall_mem_cons.2 ⟨hlow, List.forall_mem_singleton.2 hplace⟩,
        List.pairwise_pair.2 ⟨hhigh, fun h => absurd rfl h, fun h => absurd he h⟩⟩
  | @token modes modes₁ place gap behind t₁ ends tokens₁ hends hfound hbehind ih =>
    obtain ⟨hlow, hpairwise⟩ := ih
    have hplace : place.offset ≤ t₁.start.offset := by
      rw [hfound.start]
      exact le_offset_after _ _
    have hlater : ∀ u ∈ tokens₁, t₁.start.offset < u.start.offset := fun u hu =>
      Nat.lt_of_lt_of_le hfound.start_lt_stop (hlow u hu)
    have hcons : (t₁ :: tokens₁).Pairwise Precedes :=
      List.pairwise_cons.2 ⟨fun u hu => ⟨Nat.le_of_lt (hlater u hu), fun _ => hlater u hu, fun _ => hlow u hu⟩, hpairwise⟩
    have hall : ∀ u ∈ t₁ :: tokens₁, t₁.start.offset ≤ u.start.offset :=
      List.forall_mem_cons.2 ⟨Nat.le_refl _, fun u hu => Nat.le_of_lt (hlater u hu)⟩
    rcases hends with rfl | ⟨-, e, rfl, -, he, hlowEnd, hhighEnd, -⟩
    · exact ⟨fun u hu => Nat.le_trans hplace (hall u hu), hcons⟩
    · refine ⟨List.forall_mem_cons.2 ⟨hlowEnd, fun u hu => Nat.le_trans hplace (hall u hu)⟩,
        List.pairwise_cons.2 ⟨fun u hu => ?_, hcons⟩⟩
      have hlt := Nat.lt_of_lt_of_le hhighEnd (hall u hu)
      exact ⟨Nat.le_of_lt hlt, fun _ => hlt, fun h => absurd he h⟩

end Spelled

end Lexer

end Consolidation.Python
