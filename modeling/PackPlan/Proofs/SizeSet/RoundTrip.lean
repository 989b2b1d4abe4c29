import PackPlan.Proofs.Json.Writer
import PackPlan.Proofs.SizeSet.Reader

/-!
# PackPlan.Proofs.SizeSet.RoundTrip

Writing a set of sizes and reading it again. A set is written as its sizes, largest first
(`IsCanonical`), and both ways to read give it back: as a text of sizes (`read_text`) and as the same
text in brackets (`ofJson_json`). A text may write a set in many ways, but only one of them is
canonical (`eq_text`), so reading and writing again brings any of them to this one.
-/

namespace PackPlan
namespace SizeSet

open Numeral

/-- The text writes sizes by their digits, in strictly descending order. -/
def IsCanonical (text : String) : Prop :=
  ∃ sizes : List Nat, sizes ≠ [] ∧ sizes.Pairwise (· > ·) ∧
    (∀ size ∈ sizes, 0 < size ∧ (size : Int) ≤ maxQuantity) ∧
      text.toList = [','].intercalate (sizes.map (Nat.toDigits 10))

variable {s : SizeSet}

theorem toList_text (s : SizeSet) :
    s.text.toList = [','].intercalate (s.toList.map (Nat.toDigits 10)) := by
  have hdigits : s.toList.map (String.toList ∘ toString) = s.toList.map (Nat.toDigits 10) :=
    List.map_congr_left fun n _ => toList_toString_nat n
  rw [text, String.toList_intercalate, List.map_map, hdigits]
  rfl

theorem isCanonical_text (hs : s.IsInRange) : IsCanonical s.text :=
  ⟨s.toList, s.ne_nil, s.pairwise, fun n hn => ⟨s.pos n hn, hs n hn⟩, toList_text s⟩

theorem json_eq (s : SizeSet) : s.json = "[" ++ s.text ++ "]" := rfl

/-! ## Reading what was written -/

theorem spells_toDigits (n : Nat) : Spells (Nat.toDigits 10 n) (some n) := by
  have h := @Spells.size [] [] [] 0 n (List.forall_mem_nil _) (.inl rfl) (List.forall_mem_nil _)
  simpa using h

theorem read_text (hs : s.IsInRange) : read s.text = .ok s := by
  have hspells : List.Forall₂ Spells (s.toList.map (Nat.toDigits 10)) (s.toList.map some) :=
    forall₂_map fun n _ => spells_toDigits n
  refine read_of_spells hs hspells ?_ (toList_text s).symm
  intro n
  rw [List.mem_map_of_injective (Option.some_injective Nat)]

/-- The numbers that a set is written as in JSON make the set again. -/
theorem ofList_toList (s : SizeSet) : ofList (s.toList.map Int.ofNat) = .ok s := by
  refine ofList_eq_ok.2 ⟨?_, ofPositives?_eq_some_iff.2 ?_⟩
  · intro size hm
    obtain ⟨n, hn, rfl⟩ := List.mem_map.1 hm
    exact Int.natCast_pos.2 (s.pos n hn)
  · intro n
    rw [← Int.ofNat_eq_natCast, List.mem_map_of_injective fun _ _ => Int.ofNat.inj]
    exact (and_iff_left_of_imp (s.pos n)).symm

theorem ofJson_json (hs : s.IsInRange) : ofJson s.json = .ok s := by
  have hvalues : ∀ row ∈ s.toList.map fun n : Nat => Json.numeral n, Json.IsValue row := by
    intro row hrow
    obtain ⟨n, -, rfl⟩ := List.mem_map.1 hrow
    exact Json.isValue_numeral n
  have hspells : List.Forall₂ (fun row text => Json.Spells row text.toList)
      (s.toList.map fun n : Nat => Json.numeral n) (s.toList.map toString) :=
    forall₂_map fun n _ => Json.spells_numeral_nat n
  have htakes : List.Forall₂ (Json.Takes Json.quantity)
      (s.toList.map fun n : Nat => Json.numeral n) (s.toList.map Int.ofNat) := by
    have hmin : minQuantity ≤ 0 := by decide
    exact forall₂_map fun n hn => Json.takes_quantity ⟨by omega, hs n hn⟩
  have hlist : Json.Takes (Json.list Json.quantity) _ _ :=
    Json.takes_list Json.whole_integer hvalues htakes
  refine Json.Takes.decode ?_ (.list hvalues) (Json.spells_array hspells)
  intro ps rest hps
  simp only [jsonReader, hlist ps rest hps, ofList_toList s]
  rfl

/-! ## Canonical texts -/

theorem IsCanonical.exists_set {text : String} (h : IsCanonical text) :
    ∃ s : SizeSet, s.IsInRange ∧ s.text = text := by
  obtain ⟨sizes, hne, hdesc, hrange, htext⟩ := h
  let s : SizeSet := ⟨sizes, hne, hdesc, fun n hn => (hrange n hn).1⟩
  refine ⟨s, fun n hn => (hrange n hn).2, String.toList_injective ?_⟩
  rw [toList_text, htext]

/-- Of the texts that are read as a set, the one that is written is canonical and no other is. -/
theorem eq_text {text : String} (h : IsCanonical text) (hread : read text = .ok s) :
    text = s.text := by
  obtain ⟨t, ht, rfl⟩ := h.exists_set
  rw [read_text ht] at hread
  cases hread
  rfl

/-- **Sets of sizes survive writing and reading.** Both texts of a set are read as the set, and they
differ only in the brackets. Whatever text or JSON is read as a set, writing the set gives its
canonical text, which is read as the set again. -/
theorem written_and_read :
    (∀ s, Attainable s →
      read s.text = .ok s ∧ ofJson s.json = .ok s ∧ s.json = "[" ++ s.text ++ "]") ∧
    ∀ text s, read text = .ok s ∨ ofJson text = .ok s →
      (IsCanonical s.text ∧ ∀ other, IsCanonical other → read other = .ok s → other = s.text) ∧
        read s.text = .ok s ∧ ofJson s.json = .ok s ∧ s.json = "[" ++ s.text ++ "]" := by
  have hwritten : ∀ s, s.IsInRange →
      read s.text = .ok s ∧ ofJson s.json = .ok s ∧ s.json = "[" ++ s.text ++ "]" :=
    fun s hs => ⟨read_text hs, ofJson_json hs, json_eq s⟩
  refine ⟨fun s h => hwritten s h.isInRange, fun text s h => ?_⟩
  have hs : s.IsInRange := h.elim isInRange_of_read isInRange_of_ofJson
  exact ⟨⟨isCanonical_text hs, fun other ho => eq_text ho⟩, hwritten s hs⟩

/-- A text that writes a size twice, out of order and with more than its digits. -/
theorem written_and_read_twice : ∃ s : SizeSet, read "3, +007,3" = .ok s ∧ s.text = "7,3" ∧
    (read s.text = .ok s ∧ ofJson s.json = .ok s ∧ s.json = "[" ++ s.text ++ "]") ∧
      IsCanonical s.text := by
  have hparts : readParts (parts "3, +007,3".toList) = .ok [3, 7, 3] := rfl
  have hset : ofList [3, 7, 3] = .ok ⟨[7, 3], by decide, by decide, by decide⟩ := by
    refine ofList_eq_ok.2 ⟨by decide, ofPositives?_eq_some_iff.2 fun x => ?_⟩
    simp only [List.mem_cons, List.not_mem_nil, or_false]
    omega
  have h : read "3, +007,3" = .ok ⟨[7, 3], by decide, by decide, by decide⟩ := by
    rw [read, hparts]
    exact hset
  exact ⟨_, h, rfl, written_and_read.1 _ (.read h), (written_and_read.2 _ _ (.inl h)).1.1⟩

end SizeSet
end PackPlan
