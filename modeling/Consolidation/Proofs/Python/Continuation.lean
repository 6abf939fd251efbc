/-
# `Proofs.Python.Continuation` — a line broken by a backslash

A backslash at the end of a physical line goes on with the next line, and the check should not see the break.  A step in
reading a line does not look past the sign behind the text that it takes.  So a line that ends in a continuation leaves
the state in which the joined line reads on (`LineState.consume_join`), and the logical lines of the broken and the joined
text are the same but for whether the line in question opens a block (`LogicalLine.exists_broken_joined`).

That too is the same but in one case: the line ends in a colon before the backslash, and there is nothing on the next
line.  The colon is then forgotten, because a continued line opens no block and an empty one leaves it at that.  So the
verdict is that of the joined text except where a block begins behind such a break (`checkIndentation_broken_iff_joined`).

## What is proved

For every text with a line that holds code and ends in a continuation, every line end and whatever stands behind: the
broken text and the joined one are both accepted or both refused, if and only if it is not so that a colon is forgotten at
the break and one of the two is accepted.  With a colon forgotten they are never both accepted (`not_both_of_colon`), so
this is the only case in which they differ.

## How it goes

Reading a line is done in steps, and what a step does is settled by the text that it takes and the sign behind it.  So
each kind of step is looked at with two texts that differ from the backslash on:

| step | why the backslash does not matter |
| :-- | :-- |
| the body of a string | it ends before the backslash, or stays open and the line is cut short (`readString_append`) |
| an opening quote | neither a backslash nor a blank is a quote (`advance_quote_append`) |
| any other sign | no sign is made of a character and a backslash behind it (`advance_append`) |

Together they give that the text before the break leaves one state in both (`read_append`).  From there on the joined line
is read as the next line of the broken text is.
-/
import Consolidation.Proofs.Python.LogicalLines
import Consolidation.Proofs.Text.Lines

namespace Consolidation.Python

open Text

namespace LineState

/-! ## Strings before a break -/

section ReadString

variable {o : OpenString} {s s' : LineState} {quotes : Nat} {line rest : List Char}

theorem openString_of_readString (h : readString o s quotes line = (s', none)) : s'.openString = s.openString := by
  fun_induction readString o s quotes line with
  | case1 => cases h; rfl
  | case2 => cases h; rfl
  | case3 quotes c line ih => exact ih h
  | case4 quotes c line _ _ hquote ih => exact ih h
  | case5 quotes c line _ _ hquote hclosed => cases h
  | case6 quotes c line _ _ hquote hclosed ih => exact ih h

theorem readString_cons {c : Char} (hc : c ≠ '\\') (line : List Char) :
    readString o s quotes (c :: line) =
      if c != o.quote then readString o s 0 line
      else if !o.triple || quotes == 2 then ({ s with openString := none }, some line)
      else readString o s (quotes + 1) line := by
  rw [readString]
  · intro hlast
    exact absurd hlast hc
  · intro _ _ hpair
    exact absurd hpair hc

/-- A string that ends before a backslash at the end of the line ends at that place whatever stands there instead. -/
theorem readString_append {code : List Char} (h : readString o s quotes (code ++ ['\\']) = (s', some rest)) :
    ∃ code', rest = code' ++ ['\\'] ∧ s' = { s with openString := none } ∧
      ∀ tail, readString o s quotes (code ++ tail) = (s', some (code' ++ tail)) := by
  fun_induction readString o s quotes code with
  | case1 => cases h
  | case2 quotes => cases h
  | case3 quotes c code ih =>
    obtain ⟨code', hrest, hs', htail⟩ := ih h
    exact ⟨code', hrest, hs', htail⟩
  | case4 quotes c code hlast hpair hquote ih =>
    have hc : c ≠ '\\' := fun hc => by cases code <;> simp_all
    have hstep (tail : List Char) : readString o s quotes (c :: code ++ tail) = readString o s 0 (code ++ tail) := by
      rw [List.cons_append, readString_cons hc, if_pos hquote]
    rw [hstep] at h
    obtain ⟨code', hrest, hs', htail⟩ := ih h
    exact ⟨code', hrest, hs', fun tail => (hstep tail).trans (htail tail)⟩
  | case5 quotes c code hlast hpair hquote hclosed =>
    have hc : c ≠ '\\' := fun hc => by cases code <;> simp_all
    have hstep (tail : List Char) : readString o s quotes (c :: code ++ tail) =
        ({ s with openString := none }, some (code ++ tail)) := by
      rw [List.cons_append, readString_cons hc, if_neg hquote, if_pos hclosed]
    rw [hstep] at h
    cases h
    exact ⟨code, rfl, rfl, hstep⟩
  | case6 quotes c code hlast hpair hquote hclosed ih =>
    have hc : c ≠ '\\' := fun hc => by cases code <;> simp_all
    have hstep (tail : List Char) : readString o s quotes (c :: code ++ tail) =
        readString o s (quotes + 1) (code ++ tail) := by
      rw [List.cons_append, readString_cons hc, if_neg hquote, if_neg hclosed]
    rw [hstep] at h
    obtain ⟨code', hrest, hs', htail⟩ := ih h
    exact ⟨code', hrest, hs', fun tail => (hstep tail).trans (htail tail)⟩

end ReadString

/-! ## Lines before a break -/

section Advance

variable {s s' : LineState} {c : Char} {sign : Option Char} {rest rest' : List Char}

theorem head?_append_bne_iff {tail : List Char} (htail : tail.head? ≠ some c) (code : List Char) :
    ((code ++ tail).head? != some c) = true ↔ code.head? ≠ some c := by
  cases code with
  | nil => simpa using htail
  | cons d code => simp

theorem exists_cons_of_head? {code : List Char} (h : ¬code.head? ≠ some c) : ∃ code', code = c :: code' := by
  cases code with
  | nil => exact absurd (by simp) h
  | cons d code => exact ⟨code, by simpa using h⟩

theorem advance_quote (hopen : s.openString = none) (hquote : (c == '"' || c == '\'') = true) (line : List Char) :
    s.advance c line =
      if line.head? != some c then
        .more { s with openString := some ⟨c, false⟩ } (if s.depth == 0 then some c else none) line
      else if line.tail.head? != some c then .more s (some c) line.tail
      else .more { s with openString := some ⟨c, true⟩ } (if s.depth == 0 then some c else none) line.tail.tail := by
  have hcode : (c == '#') = false ∧ (c == '\\') = false := by
    rcases Bool.or_eq_true_iff.1 hquote with hc | hc
    · rw [beq_iff_eq.1 hc]
      decide
    · rw [beq_iff_eq.1 hc]
      decide
  rw [advance, hopen]
  simp only [hcode.1, hcode.2, hquote, Bool.false_and, Bool.false_eq_true, if_false, if_true]

/-- A quote before a backslash at the end of the line is read in the same way if a blank takes the place of the backslash:
neither of the two is a quote. -/
theorem advance_quote_append {code : List Char} (hescaped : s.escaped = false) (hopen : s.openString = none)
    (hquote : (c == '"' || c == '\'') = true) (h : s.advance c (code ++ ['\\']) = .more s' sign rest) :
    s'.escaped = false ∧ ∃ code', rest = code' ++ ['\\'] ∧
      ∀ next, s.advance c (code ++ ' ' :: next) = .more s' sign (code' ++ ' ' :: next) := by
  have hbackslash : ['\\'].head? ≠ some c := by
    rintro ⟨⟩
    exact absurd hquote (by decide)
  have hblank (next : List Char) : (' ' :: next).head? ≠ some c := by
    rintro ⟨⟩
    exact absurd hquote (by decide)
  rw [advance_quote hopen hquote] at h
  simp only [advance_quote hopen hquote]
  by_cases hsecond : code.head? ≠ some c
  · rw [if_pos ((head?_append_bne_iff hbackslash code).2 hsecond)] at h
    cases h
    exact ⟨hescaped, code, rfl, fun next => if_pos ((head?_append_bne_iff (hblank next) code).2 hsecond)⟩
  rw [if_neg (mt (head?_append_bne_iff hbackslash code).1 hsecond)] at h
  simp only [if_neg (mt (head?_append_bne_iff (hblank _) code).1 hsecond)]
  obtain ⟨code, rfl⟩ := exists_cons_of_head? hsecond
  change (if ((code ++ ['\\']).head? != some c) = true then _ else _) = _ at h
  by_cases hthird : code.head? ≠ some c
  · rw [if_pos ((head?_append_bne_iff hbackslash code).2 hthird)] at h
    cases h
    exact ⟨hescaped, code, rfl, fun next => if_pos ((head?_append_bne_iff (hblank next) code).2 hthird)⟩
  rw [if_neg (mt (head?_append_bne_iff hbackslash code).1 hthird)] at h
  have hopened (next : List Char) := mt (head?_append_bne_iff (hblank next) code).1 hthird
  obtain ⟨code, rfl⟩ := exists_cons_of_head? hthird
  cases h
  exact ⟨hescaped, code, rfl, fun next => if_neg (hopened next)⟩

/-- A sign before a backslash at the end of the line is read in the same way if there is something else in the
place of the backslash, a blank in front. -/
theorem advance_append {code : List Char} (hescaped : s.escaped = false)
    (h : s.advance c (code ++ ['\\']) = .more s' sign rest) :
    s'.escaped = false ∧ ∃ code', rest = code' ++ ['\\'] ∧
      ∀ next, s.advance c (code ++ ' ' :: next) = .more s' sign (code' ++ ' ' :: next) := by
  cases hopen : s.openString with
  | some o =>
    simp only [advance, hopen] at h ⊢
    rcases hread : readString o s 0 (c :: (code ++ ['\\'])) with ⟨after, _ | left⟩
    · rw [hread] at h
      cases h
    · rw [hread] at h
      cases h
      rw [← List.cons_append] at hread
      obtain ⟨code', rfl, rfl, htail⟩ := readString_append hread
      exact ⟨hescaped, code', rfl, fun next => by rw [← List.cons_append, htail]⟩
  | none =>
    by_cases hquote : (c == '"' || c == '\'') = true
    · exact advance_quote_append hescaped hopen hquote h
    simp only [advance, hopen] at h ⊢
    have hmore {tail : List Char} (htail : tail ≠ []) : (c == '\\' && (code ++ tail).isEmpty) = false := by
      cases code <;> simp [htail]
    rw [hmore (List.cons_ne_nil _ _)] at h
    simp only [hmore (List.cons_ne_nil _ _)]
    by_cases hcomment : (c == '#') = true
    · rw [if_pos hcomment] at h
      cases h
    rw [if_neg hcomment, if_neg Bool.false_ne_true, if_neg hquote] at h
    simp only [if_neg hcomment, if_neg Bool.false_ne_true, if_neg hquote]
    by_cases hblank : isBlank c = true
    · rw [if_pos hblank] at h
      cases h
      exact ⟨hescaped, code, rfl, fun next => if_pos hblank⟩
    · rw [if_neg hblank] at h
      cases h
      refine ⟨?_, code, rfl, fun next => if_neg hblank⟩
      rw [afterSign]
      repeat' split
      all_goals exact hescaped

theorem advance_backslash (hopen : s.openString = none) : s.advance '\\' [] = .done { s with escaped := true } := by
  rw [advance, hopen]
  rfl

theorem advance_space (hopen : s.openString = none) : s.advance ' ' rest = .more s none rest := by
  rw [advance, hopen]
  rfl

theorem not_continued_of_advance {code : List Char} (hescaped : s.escaped = false)
    (h : s.advance c (code ++ ['\\']) = .done s') : ¬(s'.escaped = true ∧ s'.openString = none) := by
  rw [advance] at h
  rintro ⟨hs', hnone⟩
  cases hopen : s.openString with
  | some o =>
    rw [hopen] at h
    dsimp only at h
    rcases hread : readString o s 0 (c :: (code ++ ['\\'])) with ⟨after, _ | left⟩
    · rw [hread] at h
      cases h
      rw [openString_of_readString hread, hopen] at hnone
      cases hnone
    · rw [hread] at h
      cases h
  | none =>
    have hmore : (c == '\\' && (code ++ ['\\']).isEmpty) = false := by cases code <;> simp
    rw [hopen] at h
    dsimp only at h
    rw [hmore, if_neg Bool.false_ne_true] at h
    repeat' split at h
    all_goals cases h
    rw [hescaped] at hs'
    cases hs'

end Advance

section Read

variable {s s' : LineState} {last last' : Option Char}

theorem read_append {fuel fuel' : Nat} {code : List Char} (next : List Char) (hescaped : s.escaped = false)
    (hfuel : code.length < fuel) (hfuel' : (code ++ ' ' :: next).length ≤ fuel')
    (hread : read fuel s last (code ++ ['\\']) = (s', last')) (hs' : s'.escaped = true)
    (hclosed : s'.openString = none) :
    read fuel' s last (code ++ ' ' :: next) = read next.length { s' with escaped := false } last' next := by
  induction fuel generalizing fuel' s last code with
  | zero => cases hfuel
  | succ fuel ih =>
    obtain ⟨fuel', rfl⟩ : ∃ n, fuel' = n + 1 :=
      Nat.exists_eq_succ_of_ne_zero (by rw [List.length_append, List.length_cons] at hfuel'; omega)
    cases code with
    | nil =>
      have hle : next.length ≤ fuel' := by simpa using hfuel'
      rw [List.nil_append, read_cons] at hread
      cases hopen : s.openString with
      | some o =>
        simp only [advance, hopen, readString] at hread
        cases hread
        cases hclosed
      | none =>
        rw [advance_backslash hopen] at hread
        cases hread
        have hsame : { s with escaped := false } = s := by rw [← hescaped]
        rw [List.nil_append, read_cons, advance_space hopen]
        exact (read_congr_fuel hle (Nat.le_refl _)).trans (by rw [← hsame, Option.none_or])
    | cons c code =>
      rw [List.cons_append, read_cons] at hread
      rw [List.cons_append, read_cons]
      cases hstep : s.advance c (code ++ ['\\']) with
      | done after =>
        rw [hstep] at hread
        cases hread
        exact absurd ⟨hs', hclosed⟩ (not_continued_of_advance hescaped hstep)
      | more after sign rest =>
        obtain ⟨hafter, code', rfl, hjoined⟩ := advance_append hescaped hstep
        have hle := length_le_of_advance hstep
        rw [hstep] at hread
        rw [hjoined next]
        simp only [List.length_append, List.length_cons, List.length_nil] at hle hfuel hfuel'
        exact ih hafter (by omega) (by simp only [List.length_append, List.length_cons]; omega) hread

end Read

/-! ## Continuations -/

/-- Does a line that holds some text and a backslash behind it go on because of the backslash?  It stands outside
strings and comments then. -/
def Continues (s : LineState) (code : List Char) : Prop :=
  (s.consume (code ++ ['\\'])).1.escaped = true ∧ (s.consume (code ++ ['\\'])).1.openString = none

theorem closeLine_of_continues {s : LineState} (hescaped : s.closeLine.escaped = true)
    (hopen : s.closeLine.openString = none) : s.closeLine = s ∧ s.escaped = true ∧ s.openString = none := by
  unfold closeLine at hescaped hopen ⊢
  cases hstring : s.openString with
  | none =>
    rw [hstring] at hescaped
    exact ⟨rfl, hescaped, rfl⟩
  | some o =>
    simp only [hstring] at hescaped hopen
    split at hopen
    · next hclosed =>
      rw [if_pos hclosed] at hescaped
      simp_all
    · rw [hstring] at hopen
      cases hopen

/-- The joined line leaves what the next line leaves behind the break.  Its last sign is that of the next line, or
else the one before the break. -/
theorem consume_join {s : LineState} {code : List Char} (h : s.Continues code) (next : List Char) :
    s.consume (code ++ ' ' :: next) =
      (((s.consume (code ++ ['\\'])).1.consume next).1,
        ((s.consume (code ++ ['\\'])).1.consume next).2.or (s.consume (code ++ ['\\'])).2) := by
  obtain ⟨hescaped, hopen⟩ := h
  rcases hread : read (code ++ ['\\']).length { s with escaped := false } none (code ++ ['\\']) with ⟨s', last⟩
  have hconsume : s.consume (code ++ ['\\']) = (s'.closeLine, last) := by rw [consume, hread]
  rw [hconsume] at hescaped hopen ⊢
  obtain ⟨hclose, hescaped, hopen⟩ := closeLine_of_continues hescaped hopen
  have hjoined := (read_append next rfl (by simp) (Nat.le_refl _) hread hescaped hopen).trans (read_last ..)
  simp only [consume, hclose, hjoined]

end LineState

namespace LogicalLine

/-! ## The broken and the joined line -/

section Join

variable {s : LineState} {current : Option LogicalLine} {code : List Char}

theorem opens_goOn {l : LogicalLine} (hl : l.opens = false) (left : LineState × Option Char) :
    (l.goOn left).opens = (left.2 == some ':' && !left.1.continues) := by
  rw [goOn, hl]
  cases left.2 <;> rfl

theorem ofLines_headD (h : s.continues = true) (l : LogicalLine) (number : Nat) (ls : List (List Char)) :
    ofLines s (some l) number (ls.headD [] :: ls.tail) = ofLines s (some l) number ls := by
  cases ls with
  | cons line ls => rfl
  | nil =>
    rw [List.headD_nil, List.tail_nil, ofLines_of_continues h, ofLines, ofLines]
    rfl

theorem isVoid_of_continues (h : LineState.start.Continues code) : isVoid (code ++ ['\\']) = false := by
  cases hvoid : isVoid (code ++ ['\\']) with
  | false => rfl
  | true =>
    obtain ⟨hescaped, -⟩ := h
    rw [LineState.consume_void hvoid] at hescaped
    cases hescaped

/-- The broken and the joined line are in logical lines that differ at most in whether they open a block: the broken one
looks at the last sign behind the break alone. -/
theorem exists_broken_joined (hbetween : Between s current) (hcode : ∃ c ∈ code, isIndentation c = false)
    (h : s.Continues code) (number : Nat) (behind : List (List Char)) :
    ∃ done broken joined,
      ofLines s current number ((code ++ ['\\']) :: behind) =
        done ++ ofLines ((s.consume (code ++ ['\\'])).1.consume (behind.headD [])).1 (some broken) (number + 1 + 1)
          behind.tail ∧
      ofLines s current number ((code ++ ' ' :: behind.headD []) :: behind.tail) =
        done ++ ofLines ((s.consume (code ++ ['\\'])).1.consume (behind.headD [])).1 (some joined) (number + 1)
          behind.tail ∧
      broken.indent = joined.indent ∧
      broken.opens = (((s.consume (code ++ ['\\'])).1.consume (behind.headD [])).2 == some ':' &&
        !((s.consume (code ++ ['\\'])).1.consume (behind.headD [])).1.continues) ∧
      joined.opens = ((((s.consume (code ++ ['\\'])).1.consume (behind.headD [])).2.or
        (s.consume (code ++ ['\\'])).2) == some ':' &&
        !((s.consume (code ++ ['\\'])).1.consume (behind.headD [])).1.continues) := by
  have hjoin := LineState.consume_join h (behind.headD [])
  have hleft : (s.consume (code ++ ['\\'])).1.continues = true := by
    rw [LineState.continues, h.1, Bool.or_true]
  cases hcontinues : s.continues with
  | true =>
    obtain ⟨l, rfl, hl⟩ := hbetween hcontinues
    have hbroken : (l.goOn (s.consume (code ++ ['\\']))).opens = false := by
      rw [opens_goOn hl, hleft, Bool.not_true, Bool.and_false]
    rw [ofLines_of_continues hcontinues, ofLines_of_continues hcontinues, hjoin, ← ofLines_headD hleft,
      ofLines_of_continues hleft]
    exact ⟨[], _, _, rfl, rfl, rfl, opens_goOn hbroken _, opens_goOn hl _⟩
  | false =>
    obtain rfl := LineState.eq_start_of_continues_eq_false hcontinues
    have hends := ends_of_continues_eq_false hcontinues current
    have hvoid := isVoid_of_continues h
    have hvoid' : isVoid (code ++ ' ' :: behind.headD []) = false := by
      rw [isVoid_append hcode] at hvoid ⊢
      exact hvoid
    have hbroken : (start number (code ++ ['\\']) (LineState.start.consume (code ++ ['\\']))).opens = false := by
      rw [start, hleft, Bool.not_true, Bool.and_false]
    rw [ofLines_of_start hends hvoid, ofLines_of_start hends hvoid', hjoin, ← ofLines_headD hleft,
      ofLines_of_continues hleft]
    refine ⟨_, _, _, rfl, rfl, ?_, opens_goOn hbroken _, rfl⟩
    exact (measureFrom_append hcode .zero _).trans (measureFrom_append hcode .zero _).symm

end Join

end LogicalLine

open LogicalLine

/-! ## The verdict -/

section Verdict

variable {finish finish' : Nat} {levels : Levels} {expected : Bool}

theorem checkLines_opens_ne_ok {done rest : List LogicalLine} {plain opener : LogicalLine}
    (hindent : plain.indent = opener.indent) (hplain : plain.opens = false) (hopener : opener.opens = true)
    (h : checkLines finish levels expected (done ++ plain :: rest) = .ok ()) :
    checkLines finish' levels expected (done ++ opener :: rest) ≠ .ok () := by
  induction done generalizing levels expected with
  | cons line done ih =>
    rw [List.cons_append, checkLines_cons] at h ⊢
    cases henter : levels.enter expected line.indent with
    | error cause => nofun
    | ok levels' =>
      rw [henter] at h
      exact ih h
  | nil =>
    rw [List.nil_append, checkLines_cons] at h ⊢
    rw [← hindent]
    cases henter : levels.enter expected plain.indent with
    | error cause => nofun
    | ok levels' =>
      rw [henter] at h
      dsimp only at h ⊢
      rw [hplain] at h
      rw [hopener]
      cases rest with
      | nil => nofun
      | cons next rest =>
        rw [checkLines_cons] at h ⊢
        intro h'
        cases hfalse : levels'.enter false next.indent with
        | error cause =>
          rw [hfalse] at h
          cases h
        | ok inner =>
          cases htrue : levels'.enter true next.indent with
          | error cause =>
            rw [htrue] at h'
            cases h'
          | ok inner' =>
            -- the next line would have to be deeper and not deeper
            have hdeeper := (Levels.enter_true_eq_ok_iff.1 htrue).1.1
            rw [Levels.enter, if_neg Bool.false_ne_true, if_pos hdeeper] at hfalse
            cases hfalse

end Verdict

/-! ## Sources -/

/-- A physical line that holds code and ends in a continuation: the text before the line, and the line up to its backslash. -/
structure Continuation (before code : List Char) : Prop where
  endsLine : EndsLine before
  oneLine : '\n' ∉ code
  holdsCode : ∃ c ∈ code, isIndentation c = false
  continues : (LineState.start.behind (lines before)).Continues code

def IsNewline (newline : List Char) : Prop := newline = ['\n'] ∨ newline = ['\r', '\n']

def brokenText (before code newline behind : List Char) : List Char :=
  before ++ (code ++ '\\' :: (newline ++ behind))

def joinedText (before code behind : List Char) : List Char := before ++ (code ++ ' ' :: behind)

/-- What the line with the break leaves: the state, and the last sign of the line. -/
def leftBefore (before code : List Char) : LineState × Option Char :=
  (LineState.start.behind (lines before)).consume (code ++ ['\\'])

/-- What the line behind the break leaves.  An empty line stands for a line that is not there. -/
def leftBehind (before code behind : List Char) : LineState × Option Char :=
  (leftBefore before code).1.consume ((lines behind).headD [])

/-- Does a colon stand before the break, and nothing but blanks and a comment on the next line? -/
def ColonBeforeBreak (before code behind : List Char) : Prop :=
  (leftBefore before code).2 = some ':' ∧ leftBehind before code behind = (.start, none)

theorem lines_brokenText {before code newline : List Char} (h : EndsLine before) (hcode : '\n' ∉ code)
    (hnewline : IsNewline newline) (behind : List Char) :
    lines (brokenText before code newline behind) = lines before ++ (code ++ ['\\']) :: lines behind := by
  have hbackslash : '\n' ∉ code ++ ['\\'] := by simp [hcode]
  have hreturn : '\n' ∉ code ++ ['\\', '\r'] := by simp [hcode]
  rw [brokenText, (lines_append h _).1]
  congr 1
  rcases hnewline with rfl | rfl
  · have hsplit : code ++ '\\' :: (['\n'] ++ behind) = (code ++ ['\\']) ++ '\n' :: behind := by simp
    rw [hsplit, lines_of_line hbackslash, withoutReturn_append code (List.cons_ne_nil _ _)]
    rfl
  · have hsplit : code ++ '\\' :: (['\r', '\n'] ++ behind) = (code ++ ['\\', '\r']) ++ '\n' :: behind := by simp
    rw [hsplit, lines_of_line hreturn, withoutReturn_append code (List.cons_ne_nil _ _)]
    rfl

theorem lines_joinedText {before code : List Char} (h : EndsLine before) (hcode : '\n' ∉ code) (behind : List Char) :
    lines (joinedText before code behind) =
      lines before ++ (code ++ ' ' :: (lines behind).headD []) :: (lines behind).tail := by
  rw [joinedText, (lines_append h _).1]
  congr 1
  induction code with
  | nil =>
    rw [List.nil_append, lines_cons_of_ne (by decide) (by rintro ⟨⟩)]
    cases lines behind <;> rfl
  | cons c code ih =>
    rw [List.mem_cons, not_or] at hcode
    have hreturn : c = '\r' → (code ++ ' ' :: behind).head? ≠ some '\n' := by
      intro _ hhead
      cases code with
      | nil => cases hhead
      | cons d code => exact hcode.2 (List.mem_of_head? hhead)
    rw [List.cons_append, lines_cons_of_ne (Ne.symm hcode.1) hreturn, ih hcode.2]
    rfl

section Broken

variable {before code newline : List Char}

theorem exists_ofSource (h : Continuation before code) (hnewline : IsNewline newline) (behind : List Char) :
    ∃ done number broken joined,
      ofSource (brokenText before code newline behind) =
        done ++ ofLines (leftBehind before code behind).1 (some broken) (number + 1) (lines behind).tail ∧
      ofSource (joinedText before code behind) =
        done ++ ofLines (leftBehind before code behind).1 (some joined) number (lines behind).tail ∧
      broken.indent = joined.indent ∧
      broken.opens = ((leftBehind before code behind).2 == some ':' &&
        !(leftBehind before code behind).1.continues) ∧
      joined.opens = ((leftBehind before code behind).2.or (leftBefore before code).2 == some ':' &&
        !(leftBehind before code behind).1.continues) := by
  have hstart : Between .start none := between_of_continues_eq_false rfl none
  obtain ⟨done, current, hbetween, hbefore⟩ := exists_ofLines_append hstart (lines before) 1
  obtain ⟨more, broken, joined, hbroken, hjoined, hlines⟩ :=
    exists_broken_joined hbetween h.holdsCode h.continues (1 + (lines before).length) (lines behind)
  refine ⟨done ++ more, 1 + (lines before).length + 1, broken, joined, ?_, ?_, hlines⟩
  · rw [ofSource, lines_brokenText h.endsLine h.oneLine hnewline, hbefore, hbroken, ← List.append_assoc]
    rfl
  · rw [ofSource, lines_joinedText h.endsLine h.oneLine, hbefore, hjoined, ← List.append_assoc]
    rfl

theorem broken_iff_joined_of_not_colon (h : Continuation before code) (hnewline : IsNewline newline)
    {behind : List Char} (hcolon : ¬ColonBeforeBreak before code behind) :
    checkIndentation (brokenText before code newline behind) = .ok () ↔
      checkIndentation (joinedText before code behind) = .ok () := by
  obtain ⟨done, number, broken, joined, hbroken, hjoined, hindent, hbrokenOpens, hjoinedOpens⟩ :=
    exists_ofSource h hnewline behind
  have hopens : broken.opens = joined.opens := by
    rw [hbrokenOpens, hjoinedOpens]
    rcases hbehind : leftBehind before code behind with ⟨after, _ | sign⟩
    · cases hcontinues : after.continues with
      | true => simp
      | false =>
        obtain rfl := LineState.eq_start_of_continues_eq_false hcontinues
        have hne : (leftBefore before code).2 ≠ some ':' := fun heq => hcolon ⟨heq, hbehind⟩
        simpa using hne
    · rfl
  have hshape : (some broken).map shape = (some joined).map shape :=
    congrArg some (Prod.ext hindent hopens)
  rw [checkIndentation, checkIndentation, hbroken, hjoined]
  refine checkLines_congr ?_
  rw [List.map_append, List.map_append, map_shape_ofLines hshape number]

/-- Where a colon is forgotten, the broken and the joined text are not both accepted. -/
theorem not_both_of_colon (h : Continuation before code) (hnewline : IsNewline newline) {behind : List Char}
    (hcolon : ColonBeforeBreak before code behind)
    (haccepted : checkIndentation (brokenText before code newline behind) = .ok ()) :
    checkIndentation (joinedText before code behind) ≠ .ok () := by
  obtain ⟨done, number, broken, joined, hbroken, hjoined, hindent, hbrokenOpens, hjoinedOpens⟩ :=
    exists_ofSource h hnewline behind
  obtain ⟨hsign, hbehind⟩ := hcolon
  rw [hbehind] at hbroken hjoined hbrokenOpens hjoinedOpens
  rw [hsign] at hjoinedOpens
  have hnone : (none : Option LogicalLine).map shape = (none : Option LogicalLine).map shape := rfl
  rw [ofLines_flush rfl] at hbroken hjoined
  rw [checkIndentation, hbroken] at haccepted
  rw [checkIndentation, hjoined]
  have hne : checkLines 0 [] false
      (done ++ joined :: ofLines .start none (number + 1) (lines behind).tail) ≠ .ok () :=
    checkLines_opens_ne_ok hindent hbrokenOpens hjoinedOpens haccepted
  refine fun hjoinedAccepted => hne ((checkLines_congr ?_).1 hjoinedAccepted)
  simp only [List.map_append, Option.toList_some, List.map_cons, List.singleton_append]
  rw [map_shape_ofLines hnone (number + 1)]

/-- A line broken by a backslash is checked like the joined line, except where a block begins behind the break with nothing
on the next line.  There the broken and the joined text are not both accepted, so that the verdict is the same only if both are
refused. -/
theorem checkIndentation_broken_iff_joined (h : Continuation before code) (hnewline : IsNewline newline)
    (behind : List Char) :
    (checkIndentation (brokenText before code newline behind) = .ok () ↔
        checkIndentation (joinedText before code behind) = .ok ()) ↔
      (ColonBeforeBreak before code behind →
        checkIndentation (brokenText before code newline behind) ≠ .ok () ∧
          checkIndentation (joinedText before code behind) ≠ .ok ()) := by
  constructor
  · intro hiff hcolon
    have hbroken : checkIndentation (brokenText before code newline behind) ≠ .ok () :=
      fun haccepted => not_both_of_colon h hnewline hcolon haccepted (hiff.1 haccepted)
    exact ⟨hbroken, mt hiff.2 hbroken⟩
  · intro hcolon
    by_cases hforgets : ColonBeforeBreak before code behind
    · obtain ⟨hbroken, hjoined⟩ := hcolon hforgets
      exact iff_of_false hbroken hjoined
    · exact broken_iff_joined_of_not_colon h hnewline hforgets

end Broken

/-- The header of a function, broken behind its colon before an empty line: the block below it is taken for a line that is
indented for no reason. -/
theorem checkIndentation_brokenHeader :
    Continuation [] "def f(x): ".toList ∧ IsNewline ['\n'] ∧
      checkIndentation (brokenText [] "def f(x): ".toList ['\n'] "\n    return x\n".toList) =
        .error ⟨.unexpectedIndent, 3, 5⟩ ∧
      checkIndentation (joinedText [] "def f(x): ".toList "\n    return x\n".toList) = .ok () ∧
      ColonBeforeBreak [] "def f(x): ".toList "\n    return x\n".toList := by
  have hline : Continuation [] "def f(x): ".toList :=
    ⟨nofun, by decide, ⟨'d', by decide, rfl⟩, by decide, by decide⟩
  have hbroken : checkIndentation (brokenText [] "def f(x): ".toList ['\n'] "\n    return x\n".toList) =
      .error ⟨.unexpectedIndent, 3, 5⟩ := by decide
  have hjoined : checkIndentation (joinedText [] "def f(x): ".toList "\n    return x\n".toList) = .ok () := by
    decide
  refine ⟨hline, .inl rfl, hbroken, hjoined, ?_⟩
  -- the verdicts differ, and they do so only where a colon is forgotten
  by_contra hcolon
  have hiff := (checkIndentation_broken_iff_joined hline (.inl rfl) "\n    return x\n".toList).2
    fun h => absurd h hcolon
  rw [hiff.2 hjoined] at hbroken
  cases hbroken

end Consolidation.Python
