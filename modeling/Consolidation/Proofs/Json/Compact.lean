/-
# `Proofs.Json.Compact` — what is written on one line is read back

On one line a value may hold decimals as well, which come back with the digits that were written (`Json.reread`).
Everything else comes back as it was (`Data.ofBytes?_toBytes`).  As for the text over several lines, the induction is on
the value, and what follows it ends a number.

| value | what it comes back as |
| :-- | :-- |
| a text, a truth value, nothing | itself |
| an integer | itself |
| a decimal | the same digits, with a fraction or an exponent |

Nothing stands between the parts of a value here, so what ends a number is a comma, a closing bracket or brace, or the end
of the text.
-/
import Consolidation.Proofs.Json.RoundTrip

namespace Consolidation.Json

/-! ## Values -/

/-- A value with integers that are not negative, and with decimals. -/
inductive Data : Json → Prop where
  | null : Data null
  | bool (b : Bool) : Data (bool b)
  | nat (n : Nat) : Data (nat n)
  | decimal (d : Number.Decimal) : Data (num ⟨d, false⟩)
  | str (s : String) : Data (str s)
  | arr {items : List Json} (h : ∀ j ∈ items, Data j) : Data (arr items)
  | obj {members : List (String × Json)} (h : ∀ m ∈ members, Data m.2) : Data (obj members)

mutual

/-- What a written value is read as. -/
def reread : Json → Json
  | num ⟨d, false⟩ => num ⟨d.reread, false⟩
  | num ⟨d, true⟩ => num ⟨d, true⟩
  | arr items => arr (rereadItems items)
  | obj members => obj (rereadMembers members)
  | null => null
  | bool b => bool b
  | str s => str s
  | noText => noText

def rereadItems : List Json → List Json
  | [] => []
  | item :: rest => reread item :: rereadItems rest

def rereadMembers : List (String × Json) → List (String × Json)
  | [] => []
  | (key, value) :: rest => (key, reread value) :: rereadMembers rest

end

theorem rereadItems_eq_map (items : List Json) : rereadItems items = items.map reread := by
  induction items with
  | nil => rfl
  | cons item items ih => rw [rereadItems, ih, List.map_cons]

theorem rereadMembers_eq_map (members : List (String × Json)) :
    rereadMembers members = members.map (fun m => (m.1, reread m.2)) := by
  induction members with
  | nil => rfl
  | cons m members ih => rw [rereadMembers, ih, List.map_cons]

/-- Is a value read back from its text on one line, whatever follows? -/
def ReadsBackCompact (j : Json) : Prop :=
  ∀ (fuel : Nat) (rest : List Char), (toText j).length ≤ fuel → Ends rest →
    readValue? fuel (toText j ++ rest) = some (reread j, rest)

theorem toText_nat (n : Nat) : toText (nat n) = Nat.toDigits 10 n := by
  rw [← prettyText_nat 0 n, nat, prettyText]

theorem startsNumber_dataText (d : Number.Decimal) : StartsNumber d.dataText := by
  obtain ⟨whole, fraction, exponent, hparts⟩ := exists_parts d
  obtain ⟨c, more, rfl⟩ := List.exists_cons_of_ne_nil hparts.isWhole.ne_nil
  rw [hparts.text]
  cases d.negative with
  | false => exact ⟨c, _, rfl, .inl (hparts.isWhole.digit c List.mem_cons_self)⟩
  | true => exact ⟨'-', _, rfl, .inr rfl⟩

theorem Data.starts {j : Json} (h : Data j) : Starts (toText j) := by
  cases h with
  | null => exact ⟨_, _, rfl, by decide, by decide⟩
  | bool b => cases b <;> exact ⟨_, _, rfl, by decide, by decide⟩
  | nat n =>
    rw [toText_nat]
    exact (startsNumber_toDigits n).starts
  | decimal d => exact (startsNumber_dataText d).starts
  | str s => exact ⟨_, _, rfl, by decide, by decide⟩
  | arr h => exact ⟨'[', _, rfl, by decide, by decide⟩
  | obj h => exact ⟨'\x7b', _, rfl, by decide, by decide⟩

/-- A value that is neither a number nor made of others is written alike over several lines. -/
theorem readsBackCompact_of_readsBack {j : Json} (h : ReadsBack j) (htext : prettyText 0 j = toText j)
    (hreread : reread j = j) : ReadsBackCompact j := by
  intro fuel rest hf hrest
  rw [hreread, ← htext]
  exact h 0 fuel rest (htext ▸ hf) hrest

theorem readsBackCompact_decimal (d : Number.Decimal) : ReadsBackCompact (num ⟨d, false⟩) := by
  intro fuel rest hf hrest
  have hstart := startsNumber_dataText d
  have hread := readNumber?_dataText d hrest
  have htext : toText (num ⟨d, false⟩) = d.dataText := rfl
  obtain ⟨fuel, rfl⟩ : ∃ k, fuel = k + 1 := by
    obtain ⟨c, more, heq, -⟩ := hstart
    rw [htext, heq, List.length_cons] at hf
    exact ⟨fuel - 1, by omega⟩
  rw [htext, (hstart.append rest).readValue?, hread]
  rfl

/-! ## Lists -/

theorem readItems?_itemsText (items : List Json) (hne : items ≠ []) (hitems : ∀ j ∈ items, ReadsBackCompact j)
    (fuel : Nat) (rest : List Char) (hf : (itemsText items).length < fuel) :
    readItems? fuel (itemsText items ++ ']' :: rest) = some (items.map reread, rest) := by
  induction items generalizing fuel with
  | nil => exact absurd rfl hne
  | cons j items ih =>
    obtain ⟨fuel, rfl⟩ : ∃ k, fuel = k + 1 := ⟨fuel - 1, by omega⟩
    have hj := hitems j List.mem_cons_self
    cases items with
    | nil =>
      rw [itemsText] at hf ⊢
      exact readItems?_last (hj fuel _ (by omega) (ends_cons (by decide) _)) (skipSpace_cons (by decide) _)
    | cons j' items =>
      have htext : itemsText (j :: j' :: items) = toText j ++ ',' :: itemsText (j' :: items) := by
        rw [itemsText]
        simp
      rw [htext, List.length_append, List.length_cons] at hf
      rw [htext, List.append_assoc, List.cons_append]
      exact readItems?_more (hj fuel _ (by omega) (ends_comma _)) (skipSpace_cons (by decide) _)
        (ih (by simp) (fun j hj => hitems j (List.mem_cons_of_mem _ hj)) fuel (by omega))

theorem readsBackCompact_arr {items : List Json} (hdata : ∀ j ∈ items, Data j)
    (hitems : ∀ j ∈ items, ReadsBackCompact j) : ReadsBackCompact (arr items) := by
  intro fuel rest hf _
  have htext : toText (arr items) ++ rest = '[' :: (itemsText items ++ ']' :: rest) := by
    rw [toText]
    simp
  rw [toText, List.length_append, List.length_cons] at hf
  obtain ⟨fuel, rfl⟩ : ∃ k, fuel = k + 1 := ⟨fuel - 1, by omega⟩
  rw [htext, reread, rereadItems_eq_map]
  cases items with
  | nil =>
    rw [readValue?, skipSpace_cons (by decide)]
    rfl
  | cons j items =>
    refine readValue?_items ?_ (readItems?_itemsText _ (by simp) hitems fuel rest (by simp at hf ⊢; omega))
    obtain ⟨c, more, heq, hspace, hc⟩ := (hdata j List.mem_cons_self).starts
    obtain ⟨tail, htail⟩ : ∃ tail, itemsText (j :: items) = toText j ++ tail := by
      cases items with
      | nil => exact ⟨[], by simp [itemsText]⟩
      | cons j' items => exact ⟨',' :: itemsText (j' :: items), by rw [itemsText]; simp⟩
    rw [htail, heq]
    exact ⟨c, _, skipSpace_cons hspace _, hspace, hc⟩

/-! ## Objects -/

theorem membersText_singleton (m : String × Json) (rest : List Char) :
    membersText [m] ++ rest =
      '"' :: (m.1.toList.flatMap escapeChar ++ ('"' :: ':' :: (toText m.2 ++ rest))) := by
  rw [membersText]
  simp [stringText]

theorem membersText_cons_cons (m m' : String × Json) (members : List (String × Json)) (rest : List Char) :
    membersText (m :: m' :: members) ++ rest =
      '"' :: (m.1.toList.flatMap escapeChar ++ ('"' :: ':' ::
        (toText m.2 ++ ',' :: (membersText (m' :: members) ++ rest)))) := by
  rw [membersText]
  · simp [stringText]
  · simp

theorem readMembers?_membersText (members : List (String × Json)) (hne : members ≠ [])
    (hmembers : ∀ m ∈ members, ReadsBackCompact m.2) (fuel : Nat) (rest : List Char)
    (hf : (membersText members).length < fuel) :
    readMembers? fuel (membersText members ++ '\x7d' :: rest) =
      some (members.map (fun m => (m.1.toList.map some, reread m.2)), rest) := by
  induction members generalizing fuel with
  | nil => exact absurd rfl hne
  | cons m members ih =>
    obtain ⟨fuel, rfl⟩ : ∃ k, fuel = k + 1 := ⟨fuel - 1, by omega⟩
    have hm := hmembers m List.mem_cons_self
    cases members with
    | nil =>
      have htext := membersText_singleton m []
      rw [List.append_nil] at htext
      rw [htext] at hf
      simp only [List.length_append, List.length_cons] at hf
      rw [membersText_singleton]
      exact readMembers?_last (skipSpace_cons (by decide) _) (readString?_key m.1 _)
        (hm fuel _ (by omega) (ends_cons (by decide) _)) (skipSpace_cons (by decide) _)
    | cons m' members =>
      have htext := membersText_cons_cons m m' members []
      simp only [List.append_nil] at htext
      rw [htext] at hf
      simp only [List.length_append, List.length_cons] at hf
      rw [membersText_cons_cons]
      exact readMembers?_more (skipSpace_cons (by decide) _) (readString?_key m.1 _)
        (hm fuel _ (by omega) (ends_comma _)) (skipSpace_cons (by decide) _)
        (ih (by simp) (fun m hm => hmembers m (List.mem_cons_of_mem _ hm)) fuel (by omega))

theorem readsBackCompact_obj {members : List (String × Json)} (hmembers : ∀ m ∈ members, ReadsBackCompact m.2) :
    ReadsBackCompact (obj members) := by
  intro fuel rest hf _
  have htext : toText (obj members) ++ rest = '\x7b' :: (membersText members ++ '\x7d' :: rest) := by
    rw [toText]
    simp
  rw [toText, List.length_append, List.length_cons] at hf
  obtain ⟨fuel, rfl⟩ : ∃ k, fuel = k + 1 := ⟨fuel - 1, by omega⟩
  rw [htext, reread, rereadMembers_eq_map]
  cases members with
  | nil =>
    rw [readValue?, skipSpace_cons (by decide)]
    rfl
  | cons m members =>
    have hread := readMembers?_membersText (m :: members) (by simp) hmembers fuel rest
      (by simp at hf ⊢; omega)
    have hstart : ∃ text, skipSpace (membersText (m :: members) ++ '\x7d' :: rest) = '"' :: text := by
      cases members with
      | nil => exact ⟨_, by rw [membersText_singleton]; exact skipSpace_cons (by decide) _⟩
      | cons m' members => exact ⟨_, by rw [membersText_cons_cons]; exact skipSpace_cons (by decide) _⟩
    obtain ⟨text, hstart⟩ := hstart
    rw [readValue?_members hstart hread, ← ofMembers_map, List.map_map]
    rfl

/-! ## All values -/

theorem Data.readsBackCompact {j : Json} (h : Data j) : ReadsBackCompact j := by
  induction h with
  | null => exact readsBackCompact_of_readsBack readsBack_null rfl rfl
  | bool b => exact readsBackCompact_of_readsBack (readsBack_bool b) rfl rfl
  | nat n => exact readsBackCompact_of_readsBack (readsBack_nat n) rfl rfl
  | decimal d => exact readsBackCompact_decimal d
  | str s => exact readsBackCompact_of_readsBack (readsBack_str s) rfl rfl
  | arr h ih => exact readsBackCompact_arr h ih
  | obj h ih => exact readsBackCompact_obj ih

/-- A value is read back from its bytes on one line. -/
theorem Data.ofBytes?_toBytes {j : Json} (h : Data j) : ofBytes? j.toBytes = some (reread j) := by
  have hread := h.readsBackCompact (j.toText.length + 1) [] (Nat.le_succ _) (by simp [Ends])
  rw [List.append_nil] at hread
  rw [ofBytes?, toBytes, Text.Utf8.decode?_encode, Option.bind_some, ofText?, hread]
  rfl

end Consolidation.Json
