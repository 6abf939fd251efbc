/-
# `Proofs.Json.RoundTrip` — what is written as JSON is read back

A value that is made of texts, non-negative integers, truth values, lists and objects (`Json.Plain`) is read back from its
text over several lines (`ofBytes?_toPrettyBytes`).  The sections go from the characters of strings to values, where the
induction is on the value: what follows a value has to show that a number is at its end (`Ends`), which line ends and
commas do.

Reading has fuel, as a text may nest deep.  So the induction on the value is for all texts behind it and all fuel that is
not less than what is written of it.  What is between items and members are a comma, a line end and spaces, which reading
passes over (`readValue?_congr`).
-/
import Consolidation.Proofs.Json.Numbers
import Consolidation.Proofs.Text.Utf8

namespace Consolidation.Json

/-! ## Strings -/

theorem hexValue?_digitChar : ∀ n < 16, hexValue? (Nat.digitChar n) = some n := by decide

theorem hexDigits_control {n : Nat} (h : n < 0x20) :
    List.replicate (4 - (Text.hexDigits n).length) '0' ++ Text.hexDigits n =
      ['0', '0', Nat.digitChar (n / 16), Nat.digitChar (n % 16)] := by
  by_cases hn : n < 16
  · simp [Text.hexDigits, Nat.toDigits_of_lt_base hn, Nat.div_eq_of_lt hn, Nat.mod_eq_of_lt hn]
  · simp [Text.hexDigits, Nat.toDigits_of_base_le (by decide : 1 < 16) (by omega : 16 ≤ n),
      Nat.toDigits_of_lt_base (by omega : n / 16 < 16)]

theorem readHex4?_control {n : Nat} (h : n < 0x20) (rest : List Char) :
    readHex4? ('0' :: '0' :: Nat.digitChar (n / 16) :: Nat.digitChar (n % 16) :: rest) =
      some (n, rest) := by
  have hzero : hexValue? '0' = some 0 := by decide
  have hvalue : n / 16 * 16 + n % 16 = n := by omega
  simp only [readHex4?, hzero, hexValue?_digitChar _ (by omega : n / 16 < 16),
    hexValue?_digitChar _ (by omega : n % 16 < 16)]
  simp [hvalue]

theorem readUnicode?_control {c : Char} (h : c.toNat < 0x20) (rest : List Char) :
    readUnicode? ('0' :: '0' :: Nat.digitChar (c.toNat / 16) :: Nat.digitChar (c.toNat % 16) :: rest) =
      some (some c, rest) := by
  have hpair : ¬(0xD800 ≤ c.toNat ∧ c.toNat < 0xDC00) := by omega
  have hcode : charOfCode? c.toNat = some c := by
    simp [charOfCode?, (by omega : c.toNat < 0xD800)]
  simp only [readUnicode?, readHex4?_control h]
  simp [hpair, hcode]

/-! The three kinds of characters in a string. -/

theorem readString?_unicode {fuel : Nat} {c : Option Char} {digits rest : List Char}
    (h : readUnicode? digits = some (c, rest)) :
    readString? (fuel + 1) ('\\' :: 'u' :: digits) =
      (readString? fuel rest).map (fun r => (c :: r.1, r.2)) := by
  have hstep : readString? (fuel + 1) ('\\' :: 'u' :: digits) =
      (readUnicode? digits).bind (fun d =>
        (readString? fuel d.2).bind (fun r => some (d.1 :: r.1, r.2))) := by
    simp [readString?]
  rw [hstep, h, Option.bind_some]
  cases readString? fuel rest <;> rfl

theorem readString?_simple {fuel : Nat} {e c : Char} (h : simpleEscape? e = some c)
    (rest : List Char) :
    readString? (fuel + 1) ('\\' :: e :: rest) =
      (readString? fuel rest).map (fun r => (some c :: r.1, r.2)) := by
  have hu : e ≠ 'u' := by
    rintro rfl
    cases h
  have hstep : readString? (fuel + 1) ('\\' :: e :: rest) =
      (simpleEscape? e).bind (fun d =>
        (readString? fuel rest).bind (fun r => some (some d :: r.1, r.2))) := by
    simp [readString?]
  rw [hstep, h, Option.bind_some]
  cases readString? fuel rest <;> rfl

theorem readString?_plain {fuel : Nat} {c : Char} (hquote : c ≠ '"') (hslash : c ≠ '\\')
    (hplain : ¬c.toNat < 0x20) (rest : List Char) :
    readString? (fuel + 1) (c :: rest) =
      (readString? fuel rest).map (fun r => (some c :: r.1, r.2)) := by
  have hstep : readString? (fuel + 1) (c :: rest) =
      (readString? fuel rest).bind (fun r => some (some c :: r.1, r.2)) := by
    simp [readString?, hquote, hslash, hplain]
  rw [hstep]
  cases readString? fuel rest <;> rfl

theorem readString?_escapeChar (fuel : Nat) (c : Char) (rest : List Char) :
    readString? (fuel + 1) (escapeChar c ++ rest) =
      (readString? fuel rest).map (fun r => (some c :: r.1, r.2)) := by
  unfold escapeChar
  split
  case h_8 hquote hslash _ _ _ _ _ =>
    split
    · next hcontrol =>
      dsimp only
      rw [List.append_assoc ['\\', 'u'], hexDigits_control hcontrol]
      exact readString?_unicode (readUnicode?_control hcontrol rest)
    · next hplain => exact readString?_plain hquote hslash hplain rest
  all_goals exact readString?_simple rfl rest

theorem readString?_escaped (s rest : List Char) (fuel : Nat) (hf : s.length < fuel) :
    readString? fuel (s.flatMap escapeChar ++ '"' :: rest) = some (s.map some, rest) := by
  induction s generalizing fuel with
  | nil =>
    obtain ⟨fuel, rfl⟩ := Nat.exists_eq_add_of_lt hf
    simp [readString?]
  | cons c s ih =>
    obtain ⟨fuel, rfl⟩ : ∃ k, fuel = k + 1 := ⟨fuel - 1, by simp at hf; omega⟩
    rw [List.flatMap_cons, List.append_assoc, readString?_escapeChar,
      ih fuel (by simpa using hf)]
    rfl

theorem length_escapeChar_pos (c : Char) : 0 < (escapeChar c).length := by
  unfold escapeChar
  split
  case h_8 =>
    split
    · simp
    · simp
  all_goals simp

theorem length_le_escaped (s : List Char) : s.length ≤ (s.flatMap escapeChar).length := by
  induction s with
  | nil => exact Nat.le_refl 0
  | cons c s ih =>
    have := length_escapeChar_pos c
    rw [List.flatMap_cons, List.length_append, List.length_cons]
    omega

/-! ## Values -/

/-- A value without fractions, exponents, signs and strings that are no text. -/
inductive Plain : Json → Prop where
  | null : Plain null
  | bool (b : Bool) : Plain (bool b)
  | nat (n : Nat) : Plain (nat n)
  | str (s : String) : Plain (str s)
  | arr {items : List Json} (h : ∀ j ∈ items, Plain j) : Plain (arr items)
  | obj {members : List (String × Json)} (h : ∀ m ∈ members, Plain m.2) : Plain (obj members)

/-- Is a value read back from its text, at every depth and whatever follows? -/
def ReadsBack (j : Json) : Prop :=
  ∀ (depth fuel : Nat) (rest : List Char), (prettyText depth j).length ≤ fuel → Ends rest →
    readValue? fuel (prettyText depth j ++ rest) = some (j, rest)

theorem skipSpace_newLine (depth : Nat) (rest : List Char) :
    skipSpace (newLine depth ++ rest) = skipSpace rest := by
  have hspaces : ∀ c ∈ newLine depth, isSpace c = true := by
    intro c hc
    rcases List.mem_cons.1 hc with rfl | hc
    · rfl
    · rw [List.eq_of_mem_replicate hc]
      rfl
  exact List.dropWhile_append_of_pos hspaces

theorem skipSpace_cons {c : Char} (h : isSpace c = false) (rest : List Char) :
    skipSpace (c :: rest) = c :: rest := by
  simp [skipSpace, h]

-- the equations of readers and writers by case, which most of what follows is about
attribute [local simp] readValue? readItems? readMembers? toText prettyText prettyItems prettyMembers

theorem readValue?_congr {s s' : List Char} (h : skipSpace s = skipSpace s') (fuel : Nat) :
    readValue? fuel s = readValue? fuel s' := by
  cases fuel with
  | zero => simp
  | succ fuel => simp only [readValue?, h]

theorem readValue?_newLine (fuel depth : Nat) (rest : List Char) :
    readValue? fuel (newLine depth ++ rest) = readValue? fuel rest :=
  readValue?_congr (skipSpace_newLine depth rest) fuel

theorem ends_newLine (depth : Nat) (rest : List Char) : Ends (newLine depth ++ rest) := ends_cons (by decide) _

theorem ends_comma (rest : List Char) : Ends (',' :: rest) := ends_cons (by decide) _

theorem prettyText_nat (depth n : Nat) : prettyText depth (nat n) = Nat.toDigits 10 n := by
  simp [nat, numberText, Number.Decimal.positional,
    Number.Decimal.positionalDigits]

/-- A text that starts with a character that is no white space and ends no list. -/
def Starts (text : List Char) : Prop := ∃ c rest, text = c :: rest ∧ isSpace c = false ∧ c ≠ ']'

/-- A number starts with a digit or a sign. -/
def StartsNumber (text : List Char) : Prop := ∃ c rest, text = c :: rest ∧ (c.isDigit = true ∨ c = '-')

theorem startsNumber_toDigits (n : Nat) : StartsNumber (Nat.toDigits 10 n) := by
  obtain ⟨c, digits, heq⟩ := List.exists_cons_of_ne_nil (Nat.toDigits_ne_nil (b := 10) (n := n))
  exact ⟨c, digits, heq, .inl (isDigit_of_mem_toDigits (heq ▸ List.mem_cons_self))⟩

theorem StartsNumber.append {text : List Char} (h : StartsNumber text) (rest : List Char) :
    StartsNumber (text ++ rest) := by
  obtain ⟨c, more, rfl, hc⟩ := h
  exact ⟨c, more ++ rest, List.cons_append, hc⟩

theorem StartsNumber.starts {text : List Char} (h : StartsNumber text) : Starts text := by
  obtain ⟨c, rest, heq, hc | rfl⟩ := h
  · have hne : ∀ d : Char, d.isDigit = false → c ≠ d := by
      rintro d hd rfl
      rw [hc] at hd
      cases hd
    refine ⟨c, rest, heq, ?_, hne _ (by decide)⟩
    simp [isSpace, hne ' ' (by decide), hne '\t' (by decide), hne '\n' (by decide),
      hne '\r' (by decide)]
  · exact ⟨'-', rest, heq, by decide, by decide⟩

/-- None of the other kinds of values starts like a number. -/
theorem StartsNumber.readValue? {text : List Char} (h : StartsNumber text) (fuel : Nat) :
    Json.readValue? (fuel + 1) text = (readNumber? text).map (fun n => (num n.1, n.2)) := by
  obtain ⟨c, rest, heq, hspace, -⟩ := h.starts
  obtain ⟨c', rest', heq', hc⟩ := h
  obtain ⟨rfl, rfl⟩ := List.cons.inj (heq.symm.trans heq')
  rw [heq, Json.readValue?, skipSpace_cons hspace]
  split
  case h_7 => rfl
  all_goals
    next hs =>
      obtain rfl := (List.cons.inj hs).1
      exact absurd hc (by decide)

theorem Plain.starts {j : Json} (h : Plain j) (depth : Nat) : Starts (prettyText depth j) := by
  cases h with
  | null => exact ⟨_, _, rfl, by decide, by decide⟩
  | bool b => cases b <;> exact ⟨_, _, rfl, by decide, by decide⟩
  | nat n =>
    rw [prettyText_nat]
    exact (startsNumber_toDigits n).starts
  | str s => exact ⟨_, _, rfl, by decide, by decide⟩
  | @arr items _ => cases items <;> exact ⟨_, _, rfl, by decide, by decide⟩
  | @obj members _ => cases members <;> exact ⟨_, _, rfl, by decide, by decide⟩

theorem readsBack_null : ReadsBack null := by
  intro depth fuel rest hf _
  obtain ⟨fuel, rfl⟩ : ∃ k, fuel = k + 1 := ⟨fuel - 1, by simp at hf; omega⟩
  rfl

theorem readsBack_bool (b : Bool) : ReadsBack (bool b) := by
  intro depth fuel rest hf _
  cases b with
  | true =>
    obtain ⟨fuel, rfl⟩ : ∃ k, fuel = k + 1 := ⟨fuel - 1, by simp at hf; omega⟩
    rfl
  | false =>
    obtain ⟨fuel, rfl⟩ : ∃ k, fuel = k + 1 := ⟨fuel - 1, by simp at hf; omega⟩
    rfl

theorem textOf?_map_some (s : List Char) : textOf? (s.map some) = some (String.ofList s) := by
  have h : (s.map some).mapM id = some s := by
    induction s with
    | nil => rfl
    | cons c s ih => simp [ih]
  rw [textOf?, h]
  rfl

theorem readsBack_str (s : String) : ReadsBack (str s) := by
  intro depth fuel rest hf _
  obtain ⟨fuel, rfl⟩ : ∃ k, fuel = k + 1 :=
    ⟨fuel - 1, by simp [stringText] at hf; omega⟩
  have hread := readString?_escaped s.toList rest
    ((s.toList.flatMap escapeChar ++ '"' :: rest).length + 1) (by
      have := length_le_escaped s.toList
      rw [List.length_append]
      omega)
  simp only [prettyText, toText, stringText, List.cons_append, List.append_assoc, List.nil_append]
  rw [readValue?, skipSpace_cons (by decide)]
  simp only [hread, Option.map_some, ofString, textOf?_map_some, String.ofList_toList]

theorem readsBack_nat (n : Nat) : ReadsBack (nat n) := by
  intro depth fuel rest hf hr
  rw [prettyText_nat] at hf ⊢
  obtain ⟨fuel, rfl⟩ : ∃ k, fuel = k + 1 :=
    ⟨fuel - 1, by have := Nat.length_toDigits_pos (b := 10) (n := n); omega⟩
  rw [((startsNumber_toDigits n).append rest).readValue?, readNumber?_toDigits n hr]
  rfl

/-! ## Lists -/

section Items

variable {fuel : Nat} {s s' after : List Char} {j : Json} {items : List Json}

theorem readItems?_last (hj : readValue? fuel s = some (j, s')) (hend : skipSpace s' = ']' :: after) :
    readItems? (fuel + 1) s = some ([j], after) := by
  simp [hj, hend]

theorem readItems?_more (hj : readValue? fuel s = some (j, s')) {more : List Char}
    (hcomma : skipSpace s' = ',' :: more) (hmore : readItems? fuel more = some (items, after)) :
    readItems? (fuel + 1) s = some (j :: items, after) := by
  simp [hj, hcomma, hmore]

theorem readValue?_items (hs : Starts (skipSpace s)) (hitems : readItems? fuel s = some (items, after)) :
    readValue? (fuel + 1) ('[' :: s) = some (arr items, after) := by
  obtain ⟨c, text, hstart, -, hc⟩ := hs
  have hskip : skipSpace ('[' :: s) = '[' :: s := rfl
  simp only [readValue?, hskip]
  split
  · next hend =>
    rw [hstart] at hend
    exact absurd (List.cons.inj hend).1 hc
  · rw [hitems]
    rfl

end Items

theorem prettyItems_cons_cons (inner : Nat) (j j' : Json) (items : List Json) (rest : List Char) :
    prettyItems inner (j :: j' :: items) ++ rest =
      newLine inner ++ (prettyText inner j ++ ',' :: (prettyItems inner (j' :: items) ++ rest)) := by
  rw [prettyItems]
  · simp only [List.append_assoc, List.cons_append]
  · simp

theorem readItems?_prettyItems (items : List Json) (hne : items ≠ [])
    (hitems : ∀ j ∈ items, ReadsBack j) (depth inner fuel : Nat) (rest : List Char)
    (hf : (prettyItems inner items).length ≤ fuel) :
    readItems? fuel (prettyItems inner items ++ (newLine depth ++ ']' :: rest)) =
      some (items, rest) := by
  induction items generalizing fuel with
  | nil => exact absurd rfl hne
  | cons j items ih =>
    have hlen : 0 < (newLine inner).length := Nat.succ_pos _
    have hj := hitems j List.mem_cons_self inner
    cases items with
    | nil =>
      simp only [prettyItems, List.length_append] at hf
      obtain ⟨fuel, rfl⟩ : ∃ k, fuel = k + 1 := ⟨fuel - 1, by omega⟩
      have hend : skipSpace (newLine depth ++ ']' :: rest) = ']' :: rest := by
        rw [skipSpace_newLine, skipSpace_cons (by decide)]
      rw [prettyItems, List.append_assoc]
      refine readItems?_last ?_ hend
      rw [readValue?_newLine]
      exact hj fuel _ (by omega) (ends_newLine _ _)
    | cons j' items =>
      simp only [prettyItems, List.length_append, List.length_cons] at hf
      obtain ⟨fuel, rfl⟩ : ∃ k, fuel = k + 1 := ⟨fuel - 1, by omega⟩
      rw [prettyItems_cons_cons]
      refine readItems?_more ?_ (skipSpace_cons (by decide) _)
        (ih (by simp) (fun j hj => hitems j (List.mem_cons_of_mem _ hj)) fuel (by omega))
      rw [readValue?_newLine]
      exact hj fuel _ (by omega) (ends_comma _)

/-- A list that is not empty does not start with its end. -/
theorem starts_prettyItems {j : Json} (hj : Plain j) (inner : Nat) (items : List Json)
    (rest : List Char) : Starts (skipSpace (prettyItems inner (j :: items) ++ rest)) := by
  obtain ⟨more, hmore⟩ : ∃ more, prettyItems inner (j :: items) ++ rest =
      newLine inner ++ (prettyText inner j ++ more) := by
    cases items with
    | nil => exact ⟨rest, by simp [prettyItems]⟩
    | cons j' items => exact ⟨_, prettyItems_cons_cons inner j j' items rest⟩
  obtain ⟨c, text, htext, hspace, hc⟩ := hj.starts inner
  rw [hmore, skipSpace_newLine, htext, List.cons_append, skipSpace_cons hspace]
  exact ⟨c, text ++ more, rfl, hspace, hc⟩

theorem readsBack_arr {items : List Json} (hplain : ∀ j ∈ items, Plain j)
    (hitems : ∀ j ∈ items, ReadsBack j) : ReadsBack (arr items) := by
  intro depth fuel rest hf _
  cases items with
  | nil =>
    obtain ⟨fuel, rfl⟩ : ∃ k, fuel = k + 1 := ⟨fuel - 1, by simp at hf; omega⟩
    rw [prettyText, List.cons_append, readValue?, skipSpace_cons (by decide)]
    rfl
  | cons j items =>
    have htext : prettyText depth (arr (j :: items)) ++ rest =
        '[' :: (prettyItems (depth + 1) (j :: items) ++ (newLine depth ++ ']' :: rest)) := by
      simp
    simp only [prettyText, List.length_append, List.length_cons] at hf
    obtain ⟨fuel, rfl⟩ : ∃ k, fuel = k + 1 := ⟨fuel - 1, by omega⟩
    have hread := readItems?_prettyItems (j :: items) (by simp) hitems depth (depth + 1) fuel rest
      (by omega)
    rw [htext]
    exact readValue?_items (starts_prettyItems (hplain j List.mem_cons_self) _ _ _) hread

/-! ## Objects -/

section Members

variable {fuel : Nat} {s text s' after : List Char} {key : List (Option Char)} {j : Json}
  {members : List (List (Option Char) × Json)}

theorem readMembers?_last (hs : skipSpace s = '"' :: text)
    (hkey : readString? (text.length + 1) text = some (key, ':' :: s'))
    {s'' : List Char} (hj : readValue? fuel s' = some (j, s''))
    (hend : skipSpace s'' = '\x7d' :: after) :
    readMembers? (fuel + 1) s = some ([(key, j)], after) := by
  simp [hs, hkey, skipSpace_cons (by decide : isSpace ':' = false), hj, hend]

theorem readMembers?_more (hs : skipSpace s = '"' :: text)
    (hkey : readString? (text.length + 1) text = some (key, ':' :: s'))
    {s'' more : List Char} (hj : readValue? fuel s' = some (j, s''))
    (hcomma : skipSpace s'' = ',' :: more) (hmore : readMembers? fuel more = some (members, after)) :
    readMembers? (fuel + 1) s = some ((key, j) :: members, after) := by
  simp [hs, hkey, skipSpace_cons (by decide : isSpace ':' = false), hj, hcomma, hmore]

theorem readValue?_members (hs : skipSpace s = '"' :: text)
    (hmembers : readMembers? fuel s = some (members, after)) :
    readValue? (fuel + 1) ('\x7b' :: s) = some (ofMembers members, after) := by
  have hskip : skipSpace ('\x7b' :: s) = '\x7b' :: s := rfl
  simp only [readValue?, hskip, hs, hmembers]
  rfl

end Members

theorem readValue?_space (fuel : Nat) (rest : List Char) :
    readValue? fuel (' ' :: rest) = readValue? fuel rest :=
  readValue?_congr (show skipSpace (' ' :: rest) = skipSpace rest from rfl) fuel

theorem prettyMembers_cons_cons (inner : Nat) (m m' : String × Json)
    (members : List (String × Json)) (rest : List Char) :
    prettyMembers inner (m :: m' :: members) ++ rest =
      newLine inner ++ ('"' :: (m.1.toList.flatMap escapeChar ++ ('"' :: ':' :: ' ' ::
        (prettyText inner m.2 ++ ',' :: (prettyMembers inner (m' :: members) ++ rest))))) := by
  rw [prettyMembers]
  · simp [stringText]
  · simp

theorem prettyMembers_singleton (inner : Nat) (m : String × Json) (rest : List Char) :
    prettyMembers inner [m] ++ rest =
      newLine inner ++ ('"' :: (m.1.toList.flatMap escapeChar ++ ('"' :: ':' :: ' ' ::
        (prettyText inner m.2 ++ rest)))) := by
  rw [prettyMembers]
  simp [stringText]

theorem readString?_key (key : String) (rest : List Char) :
    readString? ((key.toList.flatMap escapeChar ++ '"' :: rest).length + 1)
      (key.toList.flatMap escapeChar ++ '"' :: rest) = some (key.toList.map some, rest) := by
  refine readString?_escaped _ _ _ ?_
  have := length_le_escaped key.toList
  rw [List.length_append]
  omega

theorem readMembers?_prettyMembers (members : List (String × Json)) (hne : members ≠ [])
    (hmembers : ∀ m ∈ members, ReadsBack m.2) (depth inner fuel : Nat) (rest : List Char)
    (hf : (prettyMembers inner members).length ≤ fuel) :
    readMembers? fuel (prettyMembers inner members ++ (newLine depth ++ '\x7d' :: rest)) =
      some (members.map (fun m => (m.1.toList.map some, m.2)), rest) := by
  induction members generalizing fuel with
  | nil => exact absurd rfl hne
  | cons m members ih =>
    have hlen : 0 < (newLine inner).length := Nat.succ_pos _
    have hm := hmembers m List.mem_cons_self inner
    cases members with
    | nil =>
      have htext := prettyMembers_singleton inner m []
      rw [List.append_nil] at htext
      rw [htext] at hf
      simp only [List.length_append, List.length_cons] at hf
      obtain ⟨fuel, rfl⟩ : ∃ k, fuel = k + 1 := ⟨fuel - 1, by omega⟩
      rw [prettyMembers_singleton]
      have hend : skipSpace (newLine depth ++ '\x7d' :: rest) = '\x7d' :: rest := by
        rw [skipSpace_newLine, skipSpace_cons (by decide)]
      refine readMembers?_last (by rw [skipSpace_newLine, skipSpace_cons (by decide)])
        (readString?_key m.1 _) ?_ hend
      rw [readValue?_space]
      exact hm fuel _ (by omega) (ends_newLine _ _)
    | cons m' members =>
      have htext := prettyMembers_cons_cons inner m m' members []
      simp only [List.append_nil] at htext
      rw [htext] at hf
      simp only [List.length_append, List.length_cons] at hf
      obtain ⟨fuel, rfl⟩ : ∃ k, fuel = k + 1 := ⟨fuel - 1, by omega⟩
      rw [prettyMembers_cons_cons]
      refine readMembers?_more (by rw [skipSpace_newLine, skipSpace_cons (by decide)])
        (readString?_key m.1 _) ?_ (skipSpace_cons (by decide) _)
        (ih (by simp) (fun m hm => hmembers m (List.mem_cons_of_mem _ hm)) fuel (by omega))
      rw [readValue?_space]
      exact hm fuel _ (by omega) (ends_comma _)

theorem ofMembers_map (members : List (String × Json)) :
    ofMembers (members.map (fun m => (m.1.toList.map some, m.2))) = obj members := by
  have h : (members.map (fun m => (m.1.toList.map some, m.2))).mapM
      (fun m => (textOf? m.1).map (fun key => (key, m.2))) = some members := by
    induction members with
    | nil => rfl
    | cons m members ih =>
      simp [textOf?_map_some, ih]
  rw [ofMembers, h]

theorem readsBack_obj {members : List (String × Json)} (hmembers : ∀ m ∈ members, ReadsBack m.2) :
    ReadsBack (obj members) := by
  intro depth fuel rest hf _
  cases members with
  | nil =>
    obtain ⟨fuel, rfl⟩ : ∃ k, fuel = k + 1 := ⟨fuel - 1, by simp at hf; omega⟩
    rfl
  | cons m members =>
    have htext : prettyText depth (obj (m :: members)) ++ rest =
        '\x7b' :: (prettyMembers (depth + 1) (m :: members) ++ (newLine depth ++ '\x7d' :: rest)) := by
      simp
    simp only [prettyText, List.length_append, List.length_cons] at hf
    obtain ⟨fuel, rfl⟩ : ∃ k, fuel = k + 1 := ⟨fuel - 1, by omega⟩
    have hread := readMembers?_prettyMembers (m :: members) (by simp) hmembers depth (depth + 1)
      fuel rest (by omega)
    have hstart : ∃ text, skipSpace (prettyMembers (depth + 1) (m :: members) ++
        (newLine depth ++ '\x7d' :: rest)) = '"' :: text := by
      cases members with
      | nil =>
        rw [prettyMembers_singleton, skipSpace_newLine, skipSpace_cons (by decide)]
        exact ⟨_, rfl⟩
      | cons m' members =>
        rw [prettyMembers_cons_cons, skipSpace_newLine, skipSpace_cons (by decide)]
        exact ⟨_, rfl⟩
    obtain ⟨text, hstart⟩ := hstart
    rw [htext, readValue?_members hstart hread, ofMembers_map]

/-! ## All values -/

theorem Plain.readsBack {j : Json} (h : Plain j) : ReadsBack j := by
  induction h with
  | null => exact readsBack_null
  | bool b => exact readsBack_bool b
  | nat n => exact readsBack_nat n
  | str s => exact readsBack_str s
  | arr h ih => exact readsBack_arr h ih
  | obj h ih => exact readsBack_obj ih

theorem Plain.ofText?_toPrettyText {j : Json} (h : Plain j) : ofText? j.toPrettyText = some j := by
  have hread := h.readsBack 0 (j.toPrettyText.length + 1) [] (Nat.le_succ _) (by simp [Ends])
  rw [List.append_nil] at hread
  rw [ofText?, toPrettyText] at *
  rw [hread]
  rfl

theorem Plain.ofBytes?_toPrettyBytes {j : Json} (h : Plain j) : ofBytes? j.toPrettyBytes = some j := by
  rw [ofBytes?, toPrettyBytes, Text.Utf8.decode?_encode]
  exact h.ofText?_toPrettyText

end Consolidation.Json
