/-
# `Proofs.Python.LogicalLines` — how a text falls into logical lines

Reading a physical line comes down to one step for each sign (`LineState.read_cons`).  A step gives the state behind the
sign, says whether the sign counts as the last one of its line, and what of the line is left to read; from the steps it
follows that enough fuel is as good as any other (`LineState.read_congr_fuel`), and that the last sign before the line
counts only if there is none on it (`LineState.read_last`).

Line by line, a text gives logical lines and leaves one that may go on (`LogicalLine.exists_ofLines_append`).  As long as
a line goes on, it opens no block (`LogicalLine.Between`).  The check looks only at the indentation of a logical line and
at whether it opens a block (`checkLines_congr`), and these do not depend on line numbers
(`LogicalLine.map_shape_ofLines`).

What is open at the end of a line is a string, a bracket or a continuation; where nothing is open the logical line is over
(`LogicalLine.ofLines_flush`), and where the next line does not go on nothing is open
(`LineState.eq_start_of_continues_eq_false`).  So the state between two lines is known in all cases that matter, and the
modules on the indentation check need only the lemmas here.
-/
import Mathlib.Data.List.TakeWhile
import Consolidation.Proofs.Python.Blocks

namespace Consolidation.Python

open Text

namespace LineState

/-! ## Sign by sign -/

/-- What comes of reading a sign. -/
inductive Progress where
  /-- Nothing more on the line matters. -/
  | done (s : LineState)
  /-- There is more to read.  The last sign of code is another one, if one is given. -/
  | more (s : LineState) (sign : Option Char) (rest : List Char)

/-- Reads a sign, and what of the rest of the line belongs to it. -/
def advance (s : LineState) (c : Char) (rest : List Char) : Progress :=
  match s.openString with
  | some o =>
    match readString o s 0 (c :: rest) with
    | (s', some rest') => .more s' (some o.quote) rest'
    | (s', none) => .done s'
  | none =>
    if c == '#' then .done s
    else if c == '\\' && rest.isEmpty then .done { s with escaped := true }
    else if c == '"' || c == '\'' then
      let opened (triple : Bool) : LineState := { s with openString := some ⟨c, triple⟩ }
      let sign := if s.depth == 0 then some c else none
      if rest.head? != some c then .more (opened false) sign rest
      else if rest.tail.head? != some c then .more s (some c) rest.tail
      else .more (opened true) sign rest.tail.tail
    else if isBlank c then .more s none rest
    else .more (s.afterSign c).1 (if (s.afterSign c).2 then some c else none) rest

theorem read_nil (fuel : Nat) (s : LineState) (last : Option Char) : read fuel s last [] = (s, last) := by
  cases fuel <;> rfl

theorem read_cons (fuel : Nat) (s : LineState) (last : Option Char) (c : Char) (rest : List Char) :
    read (fuel + 1) s last (c :: rest) =
      match s.advance c rest with
      | .done s' => (s', last)
      | .more s' sign rest' => read fuel s' (sign.or last) rest' := by
  rw [read, advance]
  cases s.openString with
  | some o =>
    dsimp only
    rcases readString o s 0 (c :: rest) with ⟨s', _ | rest'⟩ <;> rfl
  | none =>
    dsimp only
    have hor (p : Bool) : (if p then some c else none).or last = if p then some c else last := by
      cases p <;> rfl
    by_cases hcomment : (c == '#') = true
    · rw [if_pos hcomment, if_pos hcomment]
    rw [if_neg hcomment, if_neg hcomment]
    by_cases hescape : (c == '\\' && rest.isEmpty) = true
    · rw [if_pos hescape, if_pos hescape]
    rw [if_neg hescape, if_neg hescape]
    by_cases hquote : (c == '"' || c == '\'') = true
    · rw [if_pos hquote, if_pos hquote]
      by_cases hsecond : (rest.head? != some c) = true
      · rw [if_pos hsecond, if_pos hsecond]
        exact congrArg (read fuel _ · rest) (hor _).symm
      rw [if_neg hsecond, if_neg hsecond]
      by_cases hthird : (rest.tail.head? != some c) = true
      · rw [if_pos hthird, if_pos hthird]
        rfl
      · rw [if_neg hthird, if_neg hthird]
        exact congrArg (read fuel _ · rest.tail.tail) (hor _).symm
    rw [if_neg hquote, if_neg hquote]
    by_cases hblank : isBlank c = true
    · rw [if_pos hblank, if_pos hblank]
      rfl
    · rw [if_neg hblank, if_neg hblank]
      exact congrArg (read fuel _ · rest) (hor _).symm

/-! ## Strings -/

section ReadString

variable {o : OpenString} {s s' : LineState} {quotes : Nat} {line rest : List Char}

theorem length_lt_of_readString (h : readString o s quotes line = (s', some rest)) : rest.length < line.length := by
  fun_induction readString o s quotes line with
  | case1 => cases h
  | case2 => cases h
  | case3 quotes c line ih =>
    have := ih h
    simp only [List.length_cons]
    omega
  | case4 quotes c line _ _ hquote ih =>
    have := ih h
    simp only [List.length_cons]
    omega
  | case5 quotes c line _ _ hquote hclosed =>
    cases h
    simp
  | case6 quotes c line _ _ hquote hclosed ih =>
    have := ih h
    simp only [List.length_cons]
    omega

end ReadString

/-! ## Lines -/

section Read

variable {s s' : LineState} {c : Char} {sign : Option Char} {rest rest' : List Char}

theorem length_le_of_advance (h : s.advance c rest = .more s' sign rest') : rest'.length ≤ rest.length := by
  rw [advance] at h
  cases hopen : s.openString with
  | some o =>
    rw [hopen] at h
    dsimp only at h
    rcases hread : readString o s 0 (c :: rest) with ⟨_, _ | left⟩
    · rw [hread] at h
      cases h
    · rw [hread] at h
      cases h
      exact Nat.le_of_lt_succ (length_lt_of_readString hread)
  | none =>
    rw [hopen] at h
    dsimp only at h
    have htail : rest.tail.length ≤ rest.length := by simp
    have htail' : rest.tail.tail.length ≤ rest.length := by grind
    repeat' split at h
    all_goals cases h
    all_goals
      first
        | exact Nat.le_refl _
        | exact htail
        | exact htail'

/-- The fuel does not matter if it is enough. -/
theorem read_congr_fuel {fuel fuel' : Nat} {last : Option Char} {line : List Char} (h : line.length ≤ fuel) (h' : line.length ≤ fuel') :
    read fuel s last line = read fuel' s last line := by
  induction fuel generalizing fuel' s last line with
  | zero =>
    obtain rfl := List.length_eq_zero_iff.1 (Nat.le_zero.1 h)
    rw [read_nil, read_nil]
  | succ fuel ih =>
    cases line with
    | nil => rw [read_nil, read_nil]
    | cons c rest =>
      obtain ⟨fuel', rfl⟩ := Nat.exists_eq_succ_of_ne_zero (Nat.ne_of_gt (Nat.lt_of_lt_of_le (Nat.succ_pos _) h'))
      rw [read_cons, read_cons]
      cases hstep : s.advance c rest with
      | done s' => rfl
      | more s' sign rest' =>
        have hle := length_le_of_advance hstep
        rw [List.length_cons] at h h'
        exact ih (by omega) (by omega)

/-- What was the last sign before counts only if there is none on the line. -/
theorem read_last (fuel : Nat) (s : LineState) (last : Option Char) (line : List Char) :
    read fuel s last line = ((read fuel s none line).1, (read fuel s none line).2.or last) := by
  induction fuel generalizing s last line with
  | zero => rfl
  | succ fuel ih =>
    cases line with
    | nil => rfl
    | cons c rest =>
      rw [read_cons, read_cons]
      cases s.advance c rest with
      | done s' => rfl
      | more s' sign rest' =>
        dsimp only
        rw [ih s' (sign.or last), ih s' (sign.or none), Option.or_none, Option.or_assoc]

end Read

/-! ## Between logical lines -/

/-- Nothing is open where the next line does not go on. -/
theorem eq_start_of_continues_eq_false {s : LineState} (h : s.continues = false) : s = .start := by
  rcases s with ⟨depth, openString, escaped⟩
  simp only [continues, Bool.or_eq_false_iff, decide_eq_false_iff_not, Nat.not_lt, Nat.le_zero,
    Option.isSome_eq_false_iff, Option.isNone_iff_eq_none] at h
  obtain ⟨⟨rfl, rfl⟩, rfl⟩ := h
  rfl

/-- A line with nothing but blanks and a comment changes nothing where nothing is open. -/
theorem consume_void {line : List Char} (h : LogicalLine.isVoid line = true) : start.consume line = (start, none) := by
  have hread (fuel : Nat) : read fuel start none line = (start, none) := by
    induction line generalizing fuel with
    | nil => exact read_nil fuel start none
    | cons c line ih =>
      cases fuel with
      | zero => rfl
      | succ fuel =>
        rw [read_cons]
        by_cases hindent : (c == ' ' || c == '\t' || c == '\x0c') = true
        · have hblank : start.advance c line = .more start none line := by
            simp only [Bool.or_eq_true, beq_iff_eq] at hindent
            rcases hindent with (rfl | rfl) | rfl <;> rfl
          rw [hblank]
          refine ih ?_ fuel
          rwa [LogicalLine.isVoid, List.dropWhile_cons, if_pos hindent] at h
        · rw [LogicalLine.isVoid, List.dropWhile_cons, if_neg hindent] at h
          rw [beq_iff_eq.1 h]
          rfl
  rw [consume]
  exact congrArg (fun r : LineState × Option Char => (r.1.closeLine, r.2)) (hread line.length)

def behind (s : LineState) (ls : List (List Char)) : LineState := ls.foldl (fun s line => (s.consume line).1) s

end LineState

namespace LogicalLine

/-! ## Indentation -/

/-- Does a character belong to the indentation of a line at whose start it stands? -/
def isIndentation (c : Char) : Bool := c == ' ' || c == '\t' || c == '\x0c'

theorem measureFrom_append {code : List Char} (h : ∃ c ∈ code, isIndentation c = false) (i : Indent)
    (tail : List Char) : Indent.measureFrom i (code ++ tail) = Indent.measureFrom i code := by
  induction code generalizing i with
  | nil =>
    obtain ⟨c, hc, -⟩ := h
    cases hc
  | cons c code ih =>
    have hrest (hc : isIndentation c = true) : ∃ d ∈ code, isIndentation d = false := by
      obtain ⟨d, hd, hsign⟩ := h
      rcases List.mem_cons.1 hd with rfl | hd
      · rw [hc] at hsign
        cases hsign
      · exact ⟨d, hd, hsign⟩
    simp only [List.cons_append, Indent.measureFrom]
    split
    · next hc => exact ih (hrest (by simp [isIndentation, hc])) _
    split
    · next hc => exact ih (hrest (by simp [isIndentation, hc])) _
    split
    · next hc => exact ih (hrest (by simp [isIndentation, hc])) _
    · rfl

theorem isVoid_append {code : List Char} (h : ∃ c ∈ code, isIndentation c = false) (tail : List Char) :
    isVoid (code ++ tail) = isVoid code := by
  have hne : code.dropWhile isIndentation ≠ [] := by
    intro hnil
    obtain ⟨c, hc, hsign⟩ := h
    rw [List.dropWhile_eq_nil_iff.1 hnil c hc] at hsign
    cases hsign
  obtain ⟨c, behind, hdrop⟩ := List.exists_cons_of_ne_nil hne
  have happend : (code ++ tail).dropWhile isIndentation = c :: (behind ++ tail) := by
    rw [List.dropWhile_append, hdrop]
    rfl
  have hvoid {s behind : List Char} (hs : s.dropWhile isIndentation = c :: behind) : isVoid s = (c == '#') := by
    unfold isIndentation at hs
    rw [isVoid, hs]
  rw [hvoid happend, hvoid hdrop]

/-! ## Logical lines -/

/-- What the check looks at in a logical line. -/
def shape (l : LogicalLine) : Indent × Bool := (l.indent, l.opens)

/-- A logical line that goes on with a line which leaves some state and has some last sign. -/
def goOn (l : LogicalLine) (left : LineState × Option Char) : LogicalLine :=
  { l with opens := if left.2.isSome then left.2 == some ':' && !left.1.continues else l.opens }

def start (number : Nat) (line : List Char) (left : LineState × Option Char) : LogicalLine :=
  ⟨number, .measure line, left.2 == some ':' && !left.1.continues⟩

section OfLines

variable {s : LineState} {current : Option LogicalLine} {number : Nat} {line : List Char} {rest : List (List Char)}

theorem ofLines_of_continues (h : s.continues = true) (l : LogicalLine) :
    ofLines s (some l) number (line :: rest) =
      ofLines (s.consume line).1 (some (l.goOn (s.consume line))) (number + 1) rest := by
  rw [ofLines, if_pos h]
  rfl

/-- Does a logical line end before the next line? -/
def Ends (s : LineState) (current : Option LogicalLine) : Prop := s.continues = true → current = none

theorem ends_of_continues_eq_false (h : s.continues = false) (current : Option LogicalLine) : Ends s current :=
  fun hcontinues => absurd hcontinues (Bool.eq_false_iff.1 h)

theorem Ends.goesOn (h : Ends s current) : (if s.continues then current else none) = none := by
  split
  · next hcontinues => exact h hcontinues
  · rfl

theorem ofLines_of_void (h : Ends s current) (hvoid : isVoid line = true) :
    ofLines s current number (line :: rest) = current.toList ++ ofLines s none (number + 1) rest := by
  rw [ofLines, h.goesOn]
  exact if_pos hvoid

theorem ofLines_of_start (h : Ends s current) (hvoid : isVoid line = false) :
    ofLines s current number (line :: rest) = current.toList ++
      ofLines (s.consume line).1 (some (start number line (s.consume line))) (number + 1) rest := by
  rw [ofLines, h.goesOn]
  exact if_neg (by rw [hvoid]; exact Bool.false_ne_true)

theorem ofLines_flush (h : s.continues = false) :
    ofLines s current number rest = current.toList ++ ofLines s none number rest := by
  have hends := ends_of_continues_eq_false h
  cases rest with
  | nil => simp [ofLines]
  | cons line rest =>
    cases hvoid : isVoid line with
    | true => rw [ofLines_of_void (hends current) hvoid, ofLines_of_void (hends none) hvoid]; rfl
    | false => rw [ofLines_of_start (hends current) hvoid, ofLines_of_start (hends none) hvoid]; rfl

theorem shape_goOn {l l' : LogicalLine} (h : l.shape = l'.shape) (left : LineState × Option Char) :
    (l.goOn left).shape = (l'.goOn left).shape := by
  obtain ⟨hindent, hopens⟩ := Prod.mk.inj h
  simp only [shape, goOn, hindent, hopens]

theorem map_shape_toList {current' : Option LogicalLine} (h : current.map shape = current'.map shape) :
    current.toList.map shape = current'.toList.map shape := by
  rw [← Option.toList_map, h, Option.toList_map]

/-- Line numbers do not matter to what the check looks at. -/
theorem map_shape_ofLines {current' : Option LogicalLine} (h : current.map shape = current'.map shape)
    (number' : Nat) : (ofLines s current number rest).map shape = (ofLines s current' number' rest).map shape := by
  induction rest generalizing s current current' number number' with
  | nil => exact map_shape_toList h
  | cons line rest ih =>
    by_cases hends : Ends s current
    · have hends' : Ends s current' := by
        intro hcontinues
        rw [hends hcontinues] at h
        simpa using h.symm
      cases hvoid : isVoid line with
      | true =>
        rw [ofLines_of_void hends hvoid, ofLines_of_void hends' hvoid, List.map_append, List.map_append,
          map_shape_toList h, ih rfl (number' + 1)]
      | false =>
        have hstart : (some (start number line (s.consume line))).map shape =
            (some (start number' line (s.consume line))).map shape := rfl
        rw [ofLines_of_start hends hvoid, ofLines_of_start hends' hvoid, List.map_append, List.map_append,
          map_shape_toList h, ih hstart (number' + 1)]
    · obtain ⟨hcontinues, hcurrent⟩ := Classical.not_imp.1 hends
      obtain ⟨l, rfl⟩ := Option.ne_none_iff_exists'.1 hcurrent
      obtain ⟨l', rfl, hl'⟩ := Option.map_eq_some_iff.1 h.symm
      have hgoOn : (some (l.goOn (s.consume line))).map shape = (some (l'.goOn (s.consume line))).map shape :=
        congrArg some (shape_goOn hl'.symm _)
      rw [ofLines_of_continues hcontinues, ofLines_of_continues hcontinues]
      exact ih hgoOn (number' + 1)

/-- What holds between two lines: a logical line goes on only if there is one, and it opens no block so far. -/
def Between (s : LineState) (current : Option LogicalLine) : Prop :=
  s.continues = true → ∃ l, current = some l ∧ l.opens = false

theorem between_of_continues_eq_false (h : s.continues = false) (current : Option LogicalLine) : Between s current :=
  fun hcontinues => absurd hcontinues (Bool.eq_false_iff.1 h)

theorem between_goOn {l : LogicalLine} (hl : l.opens = false) (left : LineState × Option Char) :
    Between left.1 (some (l.goOn left)) :=
  fun hcontinues => ⟨_, rfl, by simp [goOn, hcontinues, hl]⟩

theorem between_start (number : Nat) (line : List Char) (left : LineState × Option Char) :
    Between left.1 (some (start number line left)) :=
  fun hcontinues => ⟨_, rfl, by simp [start, hcontinues]⟩

/-- Lines give some logical lines and leave one that may go on. -/
theorem exists_ofLines_append (h : Between s current) (ls : List (List Char)) (number : Nat) :
    ∃ done current', Between (s.behind ls) current' ∧ ∀ rest,
      ofLines s current number (ls ++ rest) = done ++ ofLines (s.behind ls) current' (number + ls.length) rest := by
  induction ls generalizing s current number with
  | nil => exact ⟨[], current, h, fun rest => rfl⟩
  | cons line ls ih =>
    have hnumber : number + (line :: ls).length = number + 1 + ls.length := by
      rw [List.length_cons]
      omega
    rw [hnumber]
    cases hcontinues : s.continues with
    | true =>
      obtain ⟨l, rfl, hl⟩ := h hcontinues
      obtain ⟨done, current', hbetween, hrest⟩ := ih (between_goOn hl (s.consume line)) (number + 1)
      exact ⟨done, current', hbetween, fun rest => (ofLines_of_continues hcontinues l).trans (hrest rest)⟩
    | false =>
      have hends := ends_of_continues_eq_false hcontinues current
      cases hvoid : isVoid line with
      | true =>
        obtain rfl := LineState.eq_start_of_continues_eq_false hcontinues
        have hbehind : LineState.start.behind (line :: ls) = LineState.start.behind ls := by
          rw [LineState.behind, List.foldl_cons, LineState.consume_void hvoid]
          rfl
        obtain ⟨done, current', hbetween, hrest⟩ := ih (between_of_continues_eq_false hcontinues none) (number + 1)
        rw [hbehind]
        refine ⟨current.toList ++ done, current', hbetween, fun rest => ?_⟩
        rw [List.cons_append, ofLines_of_void hends hvoid, hrest, List.append_assoc]
      | false =>
        obtain ⟨done, current', hbetween, hrest⟩ := ih (between_start number line (s.consume line)) (number + 1)
        refine ⟨current.toList ++ done, current', hbetween, fun rest => ?_⟩
        rw [List.cons_append, ofLines_of_start hends hvoid, hrest, List.append_assoc]
        rfl

end OfLines

end LogicalLine

open LogicalLine

/-! ## The verdict -/

/-- Whether lines are accepted depends on their indentations and on which of them open blocks. -/
theorem checkLines_congr {finish finish' : Nat} {levels : Levels} {expected : Bool} {ls ls' : List LogicalLine} (h : ls.map shape = ls'.map shape) :
    checkLines finish levels expected ls = .ok () ↔ checkLines finish' levels expected ls' = .ok () := by
  induction ls generalizing levels expected ls' with
  | nil =>
    obtain rfl := List.map_eq_nil_iff.1 h.symm
    cases expected with
    | false => exact Iff.rfl
    | true => exact iff_of_false nofun nofun
  | cons line rest ih =>
    obtain ⟨line', rest', rfl, hline, hrest⟩ := List.map_eq_cons_iff.1 h.symm
    obtain ⟨hindent, hopens⟩ := Prod.mk.inj hline
    rw [checkLines_cons, checkLines_cons, hindent]
    cases levels.enter expected line.indent with
    | error cause => exact iff_of_false nofun nofun
    | ok levels' =>
      dsimp only
      rw [hopens]
      exact ih hrest.symm

end Consolidation.Python
