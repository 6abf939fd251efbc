/-
# `Proofs.Json.Record` — reading what was written of records

What the readers of lists, dictionaries and records make of values that were written from them.  A record whose fields
have different names is seen with exactly its members (`record?_obj`).

A list is read if each of its items is, and is then the list of what they are read as (`mapM_map_eq_some_iff`); the same
holds of a dictionary with its values (`asDict?_ofDict`).  Numbers have a limit, and are refused above it.
-/
import Mathlib.Data.List.Nodup
import Consolidation.Json.Record
import Consolidation.Proofs.Collection.Dict

namespace Consolidation.Json

variable {α : Type}

theorem asNatUpTo?_nat {limit n : Nat} (h : n ≤ limit) : asNatUpTo? limit (nat n) = some n := by
  simp [nat, asNatUpTo?, h]

theorem mapM_map_eq_some_iff {β γ : Type} {f : β → γ} {read : γ → Option β} {items : List β} :
    (items.map f).mapM read = some items ↔ ∀ a ∈ items, read (f a) = some a := by
  induction items with
  | nil => simp
  | cons a items ih =>
    rw [List.map_cons, List.mapM_cons, List.forall_mem_cons, ← ih]
    constructor
    · intro h
      obtain ⟨a', ha, h⟩ := Option.bind_eq_some_iff.1 h
      obtain ⟨items', hitems, h⟩ := Option.bind_eq_some_iff.1 h
      obtain ⟨rfl, rfl⟩ := List.cons.inj (Option.some.inj h)
      exact ⟨ha, hitems⟩
    · rintro ⟨ha, hitems⟩
      simp [ha, hitems]

theorem isSome_mapM_iff {β γ : Type} {read : β → Option γ} {items : List β} :
    (items.mapM read).isSome ↔ ∀ a ∈ items, (read a).isSome := by
  induction items with
  | nil => simp
  | cons a items ih =>
    rw [List.mapM_cons, List.forall_mem_cons, ← ih]
    cases read a with
    | none => simp
    | some b => cases items.mapM read <;> simp

theorem asList?_arr_iff {f : α → Json} {read : Json → Option α} {items : List α} :
    asList? read (arr (items.map f)) = some items ↔ ∀ a ∈ items, read (f a) = some a :=
  mapM_map_eq_some_iff

theorem asList?_strs (texts : List String) : asList? asStr? (strs texts) = some texts :=
  asList?_arr_iff.2 (fun _ _ => rfl)

theorem asDict?_ofDict {f : α → Json} {read : Json → Option α} {d : Dict α}
    (h : ∀ a ∈ d.values, read (f a) = some a) : asDict? read (ofDict f d) = some d := by
  have hmembers : (d.entries.map (fun e => (e.1, f e.2))).mapM
      (fun m => (read m.2).map (fun v => (m.1, v))) = some d.entries := by
    refine (mapM_map_eq_some_iff (f := fun e : String × α => (e.1, f e.2))).2 ?_
    rintro ⟨key, a⟩ he
    have ha : read (f a) = some a := h a (List.mem_map_of_mem (f := Prod.snd) he)
    simp [ha]
  rw [ofDict, asDict?, hmembers]
  exact congrArg some (Dict.ofList_entries d)

theorem asOption?_optStr (s : Option String) : asOption? asStr? (optStr s) = some s := by
  cases s <;> rfl

/-! ## Records -/

theorem filter_key {members : List (String × Json)} (h : (members.map (·.1)).Nodup)
    {m : String × Json} (hm : m ∈ members) : members.filter (fun m' => m'.1 == m.1) = [m] := by
  induction members with
  | nil => cases hm
  | cons m' members ih =>
    obtain ⟨hnotin, hnodup⟩ := List.nodup_cons.1 h
    rcases List.mem_cons.1 hm with rfl | hm
    · have hnone : members.filter (fun m' => m'.1 == m.1) = [] := by
        rw [List.filter_eq_nil_iff]
        intro m' hm' heq
        exact hnotin (List.mem_map.2 ⟨m', hm', eq_of_beq heq⟩)
      simp [hnone]
    · have hne : (m'.1 == m.1) = false := by
        rw [beq_eq_false_iff_ne]
        intro heq
        exact hnotin (List.mem_map.2 ⟨m, hm, heq.symm⟩)
      rw [List.filter_cons, hne]
      exact ih hnodup hm

theorem oneOf_key {members : List (String × Json)} (h : (members.map (·.1)).Nodup)
    {m : String × Json} (hm : m ∈ members) : oneOf [m.1] members = some (some m.2) := by
  have hfilter : members.filter (fun m' => [m.1].contains m'.1) = [m] := by
    rw [← filter_key h hm]
    congr 1
    funext m'
    rw [List.contains_cons, List.contains_nil, Bool.or_false]
  rw [oneOf, hfilter]

theorem lookup_map_some (members : List (String × Json)) (name : String) :
    ((members.map (fun m => (m.1, some m.2))).lookup name).join = members.lookup name := by
  induction members with
  | nil => rfl
  | cons m members ih =>
    rw [List.map_cons, List.lookup_cons, List.lookup_cons]
    split
    · rfl
    · exact ih

/-- A record is seen with its members, if no two have one name. -/
theorem record?_obj {members : List (String × Json)} (h : (members.map (·.1)).Nodup) :
    record? (members.map (·.1)) (obj members) =
      some ⟨fun name => members.lookup name, false⟩ := by
  have hvalues : ((members.map (·.1)).map (fun name => (name, ([] : List String)))).mapM
      (fun f => (oneOf (f.1 :: f.2) members).map (fun v => (f.1, v))) =
      some (members.map (fun m => (m.1, some m.2))) := by
    rw [List.map_map]
    have hall : ∀ ms : List (String × Json), (∀ m ∈ ms, m ∈ members) →
        (ms.map ((fun name => (name, ([] : List String))) ∘ (·.1))).mapM
          (fun f => (oneOf (f.1 :: f.2) members).map (fun v => (f.1, v))) =
        some (ms.map (fun m => (m.1, some m.2))) := by
      intro ms hms
      induction ms with
      | nil => rfl
      | cons m ms ih =>
        have hm := oneOf_key h (hms m List.mem_cons_self)
        have hrest := ih (fun m hm => hms m (List.mem_cons_of_mem _ hm))
        simp [hm, hrest]
    exact hall members (fun _ hm => hm)
  rw [record?, recordWith?, hvalues]
  simp [lookup_map_some]

end Consolidation.Json
