import Mathlib.Data.List.Forall2
import Mathlib.Data.List.ReduceOption
import PackPlan.Proofs.Numeral
import PackPlan.Proofs.SizeSet.Construction
import PackPlan.Proofs.Text.Pieces

/-!
# PackPlan.Proofs.SizeSet.Reader

What a text of sizes is read as. `IsParts` says what the parts of a text are, and `Makes` what they
make: the first part that writes no quantity is reported, and only then what is wrong with the
numbers. `read_outcome` says that reading does exactly this, and that a text may write the sizes of a
set in any order, repeatedly, with more commas, blanks, signs and zeros than there have to be
(`Spells`).
-/

namespace PackPlan
namespace SizeSet

open Numeral Text

/-- The parts of a text are what is left of the pieces between its commas without the blanks around
them, if anything is. -/
def IsParts (text : List Char) (found : List (List Char)) : Prop :=
  ∃ cut trimmed, (cut ≠ [] ∧ (∀ piece ∈ cut, ',' ∉ piece) ∧ [','].intercalate cut = text) ∧
    List.Forall₂ IsTrimmed cut trimmed ∧ found = trimmed.filter (· ≠ [])

/-- What parts make, with everything that may be wrong in the order in which it is looked for. -/
inductive Makes (found : List (List Char)) : Except SizeSetError SizeSet → Prop where
  | unreadable {before after : List (List Char)} {part : List Char} :
      found = before ++ part :: after → (∀ earlier ∈ before, ∃ q, WritesQuantity earlier q) →
      (¬∃ q, WritesQuantity part q) → Makes found (.error (.unreadable part))
  | empty : found = [] → Makes found (.error .empty)
  | nonPositive {sizes : List Int} {position : Nat} {size : Int} :
      List.Forall₂ WritesQuantity found sizes → IsFirstNonPositive sizes position size →
      Makes found (.error (.nonPositive position size))
  | made {sizes : List Int} {s : SizeSet} :
      List.Forall₂ WritesQuantity found sizes → (∀ size ∈ sizes, 0 < size) →
      s.MadeFrom sizes → Makes found (.ok s)

/-- A piece of a text that lists sizes: nothing but blanks, or a size with blanks around it and a plus
sign and zeros before its digits. -/
inductive Spells : List Char → Option Nat → Prop where
  | blank {piece : List Char} : AllBlank piece → Spells piece none
  | size {left sign right : List Char} {zeros n : Nat} :
      AllBlank left → sign = [] ∨ sign = ['+'] → AllBlank right →
      Spells (left ++ (sign ++ (List.replicate zeros '0' ++ Nat.toDigits 10 n)) ++ right) (some n)

theorem isParts_iff {text : List Char} {found : List (List Char)} :
    IsParts text found ↔ found = parts text := by
  have htrimmed : ∀ cut trimmed : List (List Char),
      List.Forall₂ IsTrimmed cut trimmed ↔ trimmed = cut.map trim := by
    intro cut trimmed
    have hrel : IsTrimmed = fun piece part => trim piece = part := by
      ext piece part
      rw [isTrimmed_iff, eq_comm]
    rw [hrel, eq_comm, ← List.forall₂_map_left_iff (R := (· = ·)), List.forall₂_eq_eq_eq]
  have hkept : parts text = ((pieces ',' text).map trim).filter (· ≠ []) := by
    refine List.filter_congr fun part _ => ?_
    cases part <;> rfl
  rw [hkept]
  constructor
  · rintro ⟨cut, trimmed, hcut, hall, rfl⟩
    rw [(htrimmed cut trimmed).1 hall, eq_pieces_iff.2 hcut]
  · rintro rfl
    exact ⟨_, _, eq_pieces_iff.1 rfl, (htrimmed _ _).2 rfl, rfl⟩

/-! ## The numbers of the parts -/

section Parts

variable {found : List (List Char)} {sizes : List Int}

theorem readParts_eq_ok : readParts found = .ok sizes ↔ List.Forall₂ WritesQuantity found sizes := by
  induction found generalizing sizes with
  | nil => simp [readParts, eq_comm]
  | cons part rest ih =>
    simp only [readParts]
    constructor
    · intro h
      split at h
      · cases h
      · rename_i size hsize
        split at h
        · cases h
        · rename_i others hothers; cases h
          exact .cons (quantity?_eq_some.1 hsize) (ih.1 hothers)
    · intro h
      cases h with
      | cons hsize hothers => rw [quantity?_eq_some.2 hsize, ih.2 hothers]

/-- The part that is reported is the first that writes no quantity. -/
theorem readParts_eq_error {e : SizeSetError} :
    readParts found = .error e ↔ ∃ before part after, found = before ++ part :: after ∧
      (∀ earlier ∈ before, ∃ q, WritesQuantity earlier q) ∧ (¬∃ q, WritesQuantity part q) ∧
        e = .unreadable part := by
  constructor
  · intro h
    induction found with
    | nil => cases h
    | cons part rest ih =>
      simp only [readParts] at h
      split at h
      · rename_i hpart; cases h
        exact ⟨[], part, rest, rfl, by simp, quantity?_eq_none.1 hpart, rfl⟩
      · rename_i size hsize
        split at h
        · rename_i hrest; cases h
          obtain ⟨before, later, after, rfl, hbefore, hlater, he⟩ := ih hrest
          refine ⟨part :: before, later, after, rfl, ?_, hlater, he⟩
          exact List.forall_mem_cons.2 ⟨⟨size, quantity?_eq_some.1 hsize⟩, hbefore⟩
        · cases h
  · rintro ⟨before, part, after, rfl, hbefore, hpart, rfl⟩
    induction before with
    | nil => simp only [List.nil_append, readParts, quantity?_eq_none.2 hpart]
    | cons earlier others ih =>
      obtain ⟨⟨q, hq⟩, hothers⟩ := List.forall_mem_cons.1 hbefore
      simp only [List.cons_append, readParts, quantity?_eq_some.2 hq, ih hothers]

theorem makes_readParts {r : Except SizeSetError SizeSet} :
    Makes found r ↔ (match readParts found with
      | .error e => .error e
      | .ok sizes => ofList sizes) = r := by
  constructor
  · intro h
    cases h with
    | unreadable heq hbefore hpart =>
      rw [readParts_eq_error.2 ⟨_, _, _, heq, hbefore, hpart, rfl⟩]
    | empty heq => rw [heq, readParts]; exact ofList_eq_empty.2 rfl
    | nonPositive hall hfirst => rw [readParts_eq_ok.2 hall]; exact ofList_eq_nonPositive.2 hfirst
    | made hall hpos hmade =>
      rw [readParts_eq_ok.2 hall]
      exact ofList_eq_ok.2 ⟨hpos, ofPositives?_eq_some_iff.2 hmade.collects⟩
  · rintro rfl
    split
    · rename_i e he
      obtain ⟨before, part, after, heq, hbefore, hpart, rfl⟩ := readParts_eq_error.1 he
      exact .unreadable heq hbefore hpart
    · rename_i sizes hsizes
      have hall := readParts_eq_ok.1 hsizes
      by_cases hne : sizes = []
      · subst hne
        rw [ofList_eq_empty.2 rfl]
        exact .empty (by cases hall; rfl)
      · by_cases hpos : ∀ size ∈ sizes, 0 < size
        · obtain ⟨s, hs, hset⟩ := exists_ofList hne hpos
          rw [hs]
          exact .made hall hpos (madeFrom_of_ofPositives? (readParts_ok hsizes) hset)
        · obtain ⟨position, size, hfirst⟩ := exists_isFirstNonPositive hpos
          rw [ofList_eq_nonPositive.2 hfirst]
          exact .nonPositive hall hfirst

end Parts

theorem read_eq_iff {text : String} {r : Except SizeSetError SizeSet} :
    read text = r ↔ Makes (parts text.toList) r :=
  makes_readParts.symm

/-! ## Spellings of a set -/

section Spelling

variable {piece : List Char} {spelled : Option Nat}

theorem Spells.comma_not_mem (h : Spells piece spelled) : ',' ∉ piece := by
  have hblank : ∀ {cs : List Char}, AllBlank cs → ',' ∉ cs := by
    intro cs hcs hm
    exact absurd (hcs _ hm) (by decide)
  cases h with
  | blank hall => exact hblank hall
  | size hleft hsign hright =>
    intro hm
    rw [List.mem_append, List.mem_append, List.mem_append] at hm
    rcases hm with (hl | hs | hd) | hr
    · exact hblank hleft hl
    · rcases hsign with rfl | rfl
      · cases hs
      · exact absurd (List.mem_singleton.1 hs) (by decide)
    · exact absurd ((isDigits_zeros _ _).1.digits _ hd) (by decide)
    · exact hblank hright hr

theorem writes_size {sign : List Char} {zeros n : Nat} (hsign : sign = [] ∨ sign = ['+'])
    (hn : (n : Int) ≤ maxQuantity) :
    WritesQuantity (sign ++ (List.replicate zeros '0' ++ Nat.toDigits 10 n)) n := by
  obtain ⟨hd, hvalue⟩ := isDigits_zeros zeros n
  refine ⟨?_, ?_, hn⟩
  · rcases hsign with rfl | rfl
    · simpa only [hvalue, List.nil_append] using Writes.plain hd
    · simpa only [hvalue, List.singleton_append] using Writes.plus hd
  · have : minQuantity ≤ 0 := by decide
    omega

theorem Spells.trim_size {left sign right : List Char} {zeros n : Nat} (hleft : AllBlank left)
    (hsign : sign = [] ∨ sign = ['+']) (hright : AllBlank right) :
    trim (left ++ (sign ++ (List.replicate zeros '0' ++ Nat.toDigits 10 n)) ++ right) =
      sign ++ (List.replicate zeros '0' ++ Nat.toDigits 10 n) := by
  refine (isTrimmed_of_blanks hleft hright fun c hc => ?_).eq_trim.symm
  rcases List.mem_append.1 hc with hs | hd
  · rcases hsign with rfl | rfl
    · cases hs
    · rw [List.mem_singleton.1 hs]; rfl
  · exact not_isBlank_of_isDigit ((isDigits_zeros _ _).1.digits c hd)

/-- The parts of pieces that spell sizes write these sizes. -/
theorem writes_of_spells {cut : List (List Char)} {sizes : List (Option Nat)}
    (h : List.Forall₂ Spells cut sizes) (hr : ∀ n, some n ∈ sizes → (n : Int) ≤ maxQuantity) :
    List.Forall₂ WritesQuantity ((cut.map trim).filter fun part => !part.isEmpty)
      (sizes.reduceOption.map Int.ofNat) := by
  induction h with
  | nil => exact .nil
  | @cons piece spelled others rest hp _ ih =>
    have hrest := ih fun n hm => hr n (List.mem_cons_of_mem _ hm)
    cases hp with
    | blank hall =>
      rw [List.map_cons, ← (isTrimmed_of_allBlank hall).eq_trim, List.reduceOption_cons_of_none]
      exact hrest
    | size hleft hsign hright =>
      rw [List.map_cons, Spells.trim_size hleft hsign hright, List.reduceOption_cons_of_some,
        List.filter_cons_of_pos (by simp)]
      exact .cons (writes_size hsign (hr _ List.mem_cons_self)) hrest

theorem read_of_spells {text : String} {cut : List (List Char)} {sizes : List (Option Nat)}
    {s : SizeSet} (hs : s.IsInRange) (h : List.Forall₂ Spells cut sizes)
    (hmem : ∀ n, n ∈ s.toList ↔ some n ∈ sizes) (htext : [','].intercalate cut = text.toList) :
    read text = .ok s := by
  have hne : cut ≠ [] := by
    rintro rfl
    cases h
    exact absurd ((hmem s.largest).1 (List.head_mem s.ne_nil)) List.not_mem_nil
  have hcut : pieces ',' text.toList = cut := by
    rw [← htext]
    refine pieces_intercalate hne fun piece hp => ?_
    obtain ⟨i, hi, rfl⟩ := List.getElem_of_mem hp
    exact (h.get hi (h.length_eq ▸ hi)).comma_not_mem
  have hwrites := writes_of_spells h fun n hn => hs n ((hmem n).2 hn)
  have hcollects : s.Collects (sizes.reduceOption.map Int.ofNat) := by
    intro x
    simp only [List.mem_map, List.reduceOption_mem_iff, hmem, Int.ofNat_eq_natCast, Int.natCast_inj,
      exists_eq_right]
    exact (and_iff_left_of_imp fun hx => s.pos x ((hmem x).2 hx)).symm
  rw [read_eq_iff, parts, hcut]
  refine .made hwrites ?_ (madeFrom_of_ofPositives? (readParts_ok (readParts_eq_ok.2 hwrites))
    (ofPositives?_eq_some_iff.2 hcollects))
  intro size hm
  obtain ⟨n, hn, rfl⟩ := List.mem_map.1 hm
  have hpos := s.pos n ((hmem n).2 (List.reduceOption_mem_iff.1 hn))
  exact Int.natCast_pos.2 hpos

end Spelling

/-- **A text of sizes is read by its parts**, and reports the first part that is no number before any
size that is not positive. However a text spells the sizes of a set, it is read as this set. -/
theorem read_outcome (text : String) :
    (∀ r, read text = r ↔ ∃ found, IsParts text.toList found ∧ Makes found r) ∧
    ∀ cut sizes s, IsInRange s → List.Forall₂ Spells cut sizes →
      (∀ n, n ∈ s.toList ↔ some n ∈ sizes) → [','].intercalate cut = text.toList →
        read text = .ok s := by
  refine ⟨fun r => ?_, fun cut sizes s hs h hmem htext => read_of_spells hs h hmem htext⟩
  simp only [isParts_iff, exists_eq_left]
  exact read_eq_iff

/-- A part that is no number after one that is zero, and two sizes with more than their digits. -/
theorem read_outcome_spelled :
    read "0, x,7" = .error (.unreadable ['x']) ∧
      List.Forall₂ Spells [[' ', '+', '0', '0', '7'], [], ['3', '\u00a0'], ['7']]
        [some 7, none, some 3, some 7] ∧
      read " +007,,3\u00a0,7" = .ok ⟨[7, 3], by decide, by decide, by decide⟩ := by
  have hspells : List.Forall₂ Spells [[' ', '+', '0', '0', '7'], [], ['3', '\u00a0'], ['7']]
      [some 7, none, some 3, some 7] :=
    .cons (@Spells.size [' '] ['+'] [] 2 7 (List.forall_mem_singleton.2 rfl) (.inr rfl)
        (List.forall_mem_nil _)) <|
      .cons (.blank (List.forall_mem_nil _)) <|
        .cons (@Spells.size [] [] ['\u00a0'] 0 3 (List.forall_mem_nil _) (.inl rfl)
          (List.forall_mem_singleton.2 rfl)) <|
        .cons (@Spells.size [] [] [] 0 7 (List.forall_mem_nil _) (.inl rfl)
          (List.forall_mem_nil _)) .nil
  refine ⟨((read_outcome "0, x,7").1 _).2 ⟨[['0'], ['x'], ['7']], isParts_iff.2 rfl, ?_⟩, hspells,
    (read_outcome _).2 _ _ _ ?_ hspells ?_ rfl⟩
  · have hzero : WritesQuantity ['0'] 0 := quantity?_eq_some.1 rfl
    exact @Makes.unreadable _ [['0']] [['7']] ['x'] rfl (List.forall_mem_singleton.2 ⟨0, hzero⟩)
      (quantity?_eq_none.1 rfl)
  · unfold IsInRange
    decide
  · intro n
    simp only [List.mem_cons, List.not_mem_nil, Option.some.injEq, reduceCtorEq, or_false, false_or]
    omega

end SizeSet
end PackPlan
