/-
# `Proofs.Cluster.Keys` — what a key tells

A structural key is one text, but what it was put together from can be told from it.  The name may hold anything, colons
too, so it is read from the end: the fingerprint has hexadecimal digits and the two numbers have decimal ones, none of
which is a colon (`structuralKey_eq_iff`).  A semantic key starts with another letter, whatever follows.

The fingerprint is made of the first eight digits of a digest of the keywords, and the complexity is counted in steps of
five, as functions that look alike need not be the same.  So the statement names these and not the keywords and the
complexity themselves.
-/
import Consolidation.Cluster.Key
import Consolidation.Proofs.ParseError

namespace Consolidation

/-! ## Fingerprints -/

namespace Digest

theorem forall_mem_sha256Hex {P : Char → Prop} (h : ∀ n < 16, P (hexDigit n)) (message : List UInt8) :
    ∀ c ∈ sha256Hex message, P c := by
  intro c hc
  obtain ⟨w, -, hw⟩ := List.mem_flatMap.1 hc
  obtain ⟨i, -, rfl⟩ := List.mem_map.1 hw
  exact h _ (Nat.mod_lt _ (by decide))

theorem colon_not_mem_sha256Hex (message : List UInt8) : ':' ∉ sha256Hex message :=
  fun hcolon => forall_mem_sha256Hex (P := (· ≠ ':')) (by decide) message ':' hcolon rfl

theorem fingerprint_toList (text : String) (count : Nat) :
    (fingerprint text count).toList = (sha256Hex (Text.Utf8.encode text.toList)).take count :=
  String.toList_ofList

theorem colon_not_mem_fingerprint (text : String) (count : Nat) : ':' ∉ (fingerprint text count).toList := by
  rw [fingerprint_toList]
  exact fun hcolon => colon_not_mem_sha256Hex _ (List.mem_of_mem_take hcolon)

end Digest

/-! ## Keys -/

theorem structuralKey_toList (f : FunctionRecord) :
    (structuralKey f).toList =
      "struct:".toList ++ f.name.toList ++ ':' :: Nat.toDigits 10 f.argCount ++
        ':' :: Nat.toDigits 10 (f.complexity / complexityStep) ++
          ':' :: (Digest.fingerprint f.contextKeywords structuralDigits).toList := by
  have hcolon : ":".toList = [':'] := rfl
  simp only [structuralKey, String.toList_append, hcolon, Nat.toString_eq_repr, Nat.toList_repr, List.append_assoc,
    List.singleton_append]

theorem structuralKey_ne_semanticKey (f : FunctionRecord) (keywords : String) : structuralKey f ≠ semanticKey keywords := by
  intro h
  have hlist := congrArg String.toList h
  simp [structuralKey, semanticKey, String.toList_append] at hlist

/-- **Structural keys tell their parts.**  Two functions have the same structural key exactly if they have the same name, as many
parameters, the same complexity in steps of five, and keywords whose digests start with the same eight digits.  No structural
key is a semantic one. -/
theorem structuralKey_eq_iff (f g : FunctionRecord) :
    (structuralKey f = structuralKey g ↔
      f.name = g.name ∧ f.args.length = g.args.length ∧ f.complexity / 5 = g.complexity / 5 ∧
        (Digest.sha256Hex (Text.Utf8.encode f.contextKeywords.toList)).take 8 =
          (Digest.sha256Hex (Text.Utf8.encode g.contextKeywords.toList)).take 8) ∧
    ∀ keywords, structuralKey f ≠ semanticKey keywords := by
  refine ⟨⟨fun h => ?told, fun h => ?same⟩, structuralKey_ne_semanticKey f⟩
  case told =>
    have hlist := congrArg String.toList h
    rw [structuralKey_toList, structuralKey_toList] at hlist
    -- from the end: the fingerprint, the steps of complexity, the number of parameters
    obtain ⟨hlist, hprint⟩ := Text.append_cons_inj_last (Digest.colon_not_mem_fingerprint _ _)
      (Digest.colon_not_mem_fingerprint _ _) hlist
    obtain ⟨hlist, hsteps⟩ := Text.append_cons_inj_last (not_mem_toDigits_ten rfl _) (not_mem_toDigits_ten rfl _) hlist
    obtain ⟨hlist, hargs⟩ := Text.append_cons_inj_last (not_mem_toDigits_ten rfl _) (not_mem_toDigits_ten rfl _) hlist
    have hname : f.name = g.name := String.toList_inj.1 (List.append_cancel_left hlist)
    rw [Digest.fingerprint_toList, Digest.fingerprint_toList] at hprint
    exact ⟨hname, toDigits_ten_inj.1 hargs, toDigits_ten_inj.1 hsteps, hprint⟩
  case same =>
    obtain ⟨hname, hargs, hsteps, hprint⟩ := h
    have hargs : f.argCount = g.argCount := hargs
    have hsteps : f.complexity / complexityStep = g.complexity / complexityStep := hsteps
    have hprint : Digest.fingerprint f.contextKeywords structuralDigits =
        Digest.fingerprint g.contextKeywords structuralDigits := congrArg String.ofList hprint
    rw [structuralKey, structuralKey, hname, hargs, hsteps, hprint]

end Consolidation
