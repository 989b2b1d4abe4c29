import Mathlib.Order.Bounds.Basic
import PackPlan.Proofs.SizeSet.Canonical

/-!
# PackPlan.Proofs.SizeSet.Construction

Sets made from lists of quantities. `ofList` refuses a list at the first size that is not positive
(`ofList_eq_nonPositive`) and an empty one (`ofList_eq_empty`); any other list makes the set that
`ofPositives?` makes of it (`ofList_eq_ok`). What is made has the positive sizes of the list, largest
first (`MadeFrom`), so two lists make the same set exactly when they have the same positive sizes
(`ofPositives?_eq_iff`). `made_from_lists` puts these together.
-/

namespace PackPlan
namespace SizeSet

/-- This is the first size of the list that is not positive, and its position. -/
structure IsFirstNonPositive (given : List Int) (position : Nat) (size : Int) : Prop where
  here : given[position]? = some size
  nonPositive : size ≤ 0
  before : ∀ earlier ∈ given.take position, 0 < earlier

/-- The set is made from the list: strictly descending, of its positive sizes. -/
structure MadeFrom (s : SizeSet) (given : List Int) : Prop where
  ne_nil : s.toList ≠ []
  descending : s.toList.Pairwise (· > ·)
  collects : s.Collects given
  inRange : s.IsInRange
  largest : IsGreatest {size | size ∈ given ∧ 0 < size} (s.largest : Int)
  smallest : IsLeast {size | size ∈ given ∧ 0 < size} (s.smallest : Int)

section Lists

variable {given other : List Int} {s : SizeSet}

theorem isFirstNonPositive_cons {first size : Int} {position : Nat} :
    IsFirstNonPositive (first :: given) position size ↔
      (first ≤ 0 ∧ position = 0 ∧ size = first) ∨
        (0 < first ∧ ∃ i, position = i + 1 ∧ IsFirstNonPositive given i size) := by
  constructor
  · rintro ⟨hhere, hle, hbefore⟩
    cases position with
    | zero =>
      cases hhere
      exact .inl ⟨hle, rfl, rfl⟩
    | succ i =>
      rw [List.take_succ_cons, List.forall_mem_cons] at hbefore
      exact .inr ⟨hbefore.1, i, rfl, hhere, hle, hbefore.2⟩
  · rintro (⟨hle, rfl, rfl⟩ | ⟨hpos, i, rfl, hhere, hle, hbefore⟩)
    · exact ⟨rfl, hle, List.forall_mem_nil _⟩
    · exact ⟨hhere, hle, List.forall_mem_cons.2 ⟨hpos, hbefore⟩⟩

theorem positivesFrom_eq_error {position : Nat} {e : SizeSetError} :
    positivesFrom position given = .error e ↔
      ∃ i size, e = .nonPositive (position + i) size ∧ IsFirstNonPositive given i size := by
  induction given generalizing position with
  | nil =>
    refine iff_of_false nofun ?_
    rintro ⟨i, size, -, hhere, -⟩
    cases hhere
  | cons first rest ih =>
    simp only [isFirstNonPositive_cons, positivesFrom]
    cases hf : Positive.ofInt? first with
    | none =>
      have hle := Positive.ofInt?_eq_none.1 hf
      constructor
      · intro h
        cases h
        exact ⟨0, first, rfl, .inl ⟨hle, rfl, rfl⟩⟩
      · rintro ⟨i, size, rfl, ⟨-, rfl, rfl⟩ | ⟨hpos, -⟩⟩
        · rfl
        · omega
    | some positive =>
      have hpos : 0 < first := by
        rw [Positive.ofInt?_eq_some.1 hf]
        exact_mod_cast positive.2
      have hlater : (positivesFrom (position + 1) rest).map (positive :: ·) = .error e ↔
          positivesFrom (position + 1) rest = .error e := by
        cases positivesFrom (position + 1) rest <;> simp [Except.map]
      simp only [hlater, ih]
      constructor
      · rintro ⟨i, size, rfl, hi⟩
        exact ⟨i + 1, size, by rw [Nat.add_right_comm, Nat.add_assoc], .inr ⟨hpos, i, rfl, hi⟩⟩
      · rintro ⟨-, size, rfl, ⟨hle, -⟩ | ⟨-, i, rfl, hi⟩⟩
        · omega
        · exact ⟨i, size, by rw [Nat.add_right_comm, Nat.add_assoc], hi⟩

theorem ofList_eq_nonPositive {position : Nat} {size : Int} :
    ofList given = .error (.nonPositive position size) ↔ IsFirstNonPositive given position size := by
  have hrefused : ofList given = .error (.nonPositive position size) ↔
      positivesFrom 0 given = .error (.nonPositive position size) := by
    rw [ofList]
    cases positivesFrom 0 given with
    | error e => simp only [Except.error.injEq]
    | ok positives =>
      simp only
      split <;> simp
  rw [hrefused, positivesFrom_eq_error]
  constructor
  · rintro ⟨i, found, he, hfirst⟩
    cases he
    rwa [Nat.zero_add]
  · intro hfirst
    exact ⟨position, size, by rw [Nat.zero_add], hfirst⟩

theorem ofList_eq_empty : ofList given = .error .empty ↔ given = [] := by
  constructor
  · intro h
    rw [ofList] at h
    cases hp : positivesFrom 0 given with
    | error e =>
      obtain ⟨i, size, rfl, -⟩ := positivesFrom_eq_error.1 hp
      rw [hp] at h
      cases h
    | ok positives =>
      rw [hp] at h
      simp only at h
      split at h
      · cases h
      · -- no size is positive, but all are
        rename_i hnone
        obtain ⟨hpos, rfl⟩ := positivesFrom_eq_ok.1 hp
        refine List.eq_nil_iff_forall_not_mem.2 fun size hm => ?_
        have hle := ofPositives?_eq_none.1 hnone size hm
        have hlt := hpos size hm
        omega
  · rintro rfl
    simp only [ofList, positivesFrom, ofSizes?_eq_none.2 rfl]

theorem ofList_eq_ok :
    ofList given = .ok s ↔ (∀ size ∈ given, 0 < size) ∧ ofPositives? given = some s := by
  constructor
  · intro h
    refine ⟨?_, ofPositives?_of_ofList h⟩
    cases hp : positivesFrom 0 given with
    | error e => rw [ofList, hp] at h; cases h
    | ok positives => exact (positivesFrom_eq_ok.1 hp).1
  · rintro ⟨hpos, hset⟩
    rw [ofPositives?] at hset
    simp only [ofList, positivesFrom_eq_ok.2 ⟨hpos, rfl⟩, hset]

/-- A list in which not all sizes are positive has a first one that is not. -/
theorem exists_isFirstNonPositive (h : ¬∀ size ∈ given, 0 < size) :
    ∃ position size, IsFirstNonPositive given position size := by
  cases hp : positivesFrom 0 given with
  | ok positives => exact absurd (positivesFrom_eq_ok.1 hp).1 h
  | error e =>
    obtain ⟨position, size, -, hfirst⟩ := positivesFrom_eq_error.1 hp
    exact ⟨position, size, hfirst⟩

theorem exists_ofList (hne : given ≠ []) (hpos : ∀ size ∈ given, 0 < size) :
    ∃ s, ofList given = .ok s ∧ ofPositives? given = some s := by
  obtain ⟨size, hm⟩ := List.exists_mem_of_ne_nil given hne
  obtain ⟨s, hs⟩ := exists_ofPositives? ⟨size, hm, hpos size hm⟩
  exact ⟨s, ofList_eq_ok.2 ⟨hpos, hs⟩, hs⟩

theorem Collects.isGreatest (h : s.Collects given) :
    IsGreatest {size | size ∈ given ∧ 0 < size} (s.largest : Int) := by
  obtain ⟨hm, hpos⟩ := (h s.largest).1 (List.head_mem s.ne_nil)
  refine ⟨⟨hm, by exact_mod_cast hpos⟩, ?_⟩
  rintro size ⟨hsize, hlt⟩
  lift size to Nat using hlt.le
  exact_mod_cast s.le_largest ((h size).2 ⟨hsize, by exact_mod_cast hlt⟩)

theorem Collects.isLeast (h : s.Collects given) :
    IsLeast {size | size ∈ given ∧ 0 < size} (s.smallest : Int) := by
  obtain ⟨hm, hpos⟩ := (h s.smallest).1 (List.getLast_mem s.ne_nil)
  refine ⟨⟨hm, by exact_mod_cast hpos⟩, ?_⟩
  rintro size ⟨hsize, hlt⟩
  lift size to Nat using hlt.le
  exact_mod_cast s.smallest_le ((h size).2 ⟨hsize, by exact_mod_cast hlt⟩)

theorem madeFrom_of_ofPositives? (hq : ∀ size ∈ given, IsQuantity size)
    (h : ofPositives? given = some s) : s.MadeFrom given :=
  have hcollects := ofPositives?_eq_some_iff.1 h
  { ne_nil := s.ne_nil
    descending := s.pairwise
    collects := hcollects
    inRange := isInRange_of_ofPositives? hq h
    largest := hcollects.isGreatest
    smallest := hcollects.isLeast }

/-- Two lists make the same set exactly when they have the same positive sizes. -/
theorem ofPositives?_eq_iff :
    ofPositives? given = ofPositives? other ↔ ∀ size, 0 < size → (size ∈ given ↔ size ∈ other) := by
  refine ⟨fun h => ?_, ofPositives?_congr⟩
  cases hg : ofPositives? given with
  | none =>
    rw [hg] at h
    intro size hpos
    refine iff_of_false (fun hm => ?_) fun hm => ?_
    · have hle := ofPositives?_eq_none.1 hg size hm
      omega
    · have hle := ofPositives?_eq_none.1 h.symm size hm
      omega
  | some s =>
    rw [hg] at h
    intro size hpos
    lift size to Nat using hpos.le
    have hp : 0 < size := by exact_mod_cast hpos
    have hmem := (@mem_ofPositives? _ _ hg size).symm.trans (mem_ofPositives? h.symm)
    simpa [hp] using hmem

end Lists

/-- **Sets of sizes are canonical.** A list is refused at its first size that is not positive, or for
being empty, and otherwise makes the set of its sizes. Leaving out what is not positive makes that
set from any list with a positive size. -/
theorem made_from_lists (given : List Int) (hq : ∀ size ∈ given, IsQuantity size) :
    (∀ position size, ofList given = .error (.nonPositive position size) ↔
      IsFirstNonPositive given position size) ∧
    (ofList given = .error .empty ↔ given = []) ∧
    (given ≠ [] → (∀ size ∈ given, 0 < size) →
      ∃ s, ofList given = .ok s ∧ ofPositives? given = some s) ∧
    (ofPositives? given = none ↔ ∀ size ∈ given, size ≤ 0) ∧
    (∀ s, ofList given = .ok s ∨ ofPositives? given = some s → s.MadeFrom given) ∧
    ∀ other, ofPositives? given = ofPositives? other ↔
      ∀ size, 0 < size → (size ∈ given ↔ size ∈ other) := by
  refine ⟨fun _ _ => ofList_eq_nonPositive, ofList_eq_empty, exists_ofList, ofPositives?_eq_none,
    ?_, fun _ => ofPositives?_eq_iff⟩
  rintro s (h | h)
  · exact madeFrom_of_ofPositives? hq (ofPositives?_of_ofList h)
  · exact madeFrom_of_ofPositives? hq h

/-- A list with two sizes that are not positive and one that comes twice. -/
theorem made_from_lists_mixed :
    (∀ size ∈ [7, -2, 3, 0, 7], IsQuantity size) ∧
      ofList [7, -2, 3, 0, 7] = .error (.nonPositive 1 (-2)) ∧
      (∃ s, ofPositives? [7, -2, 3, 0, 7] = some s ∧ s.MadeFrom [7, -2, 3, 0, 7]) ∧
      ofPositives? [7, -2, 3, 0, 7] = ofPositives? [3, 7] := by
  have hq : ∀ size ∈ [7, -2, 3, 0, 7], IsQuantity size := by decide
  obtain ⟨hfirst, -, -, hnone, hmade, hsame⟩ := made_from_lists [7, -2, 3, 0, 7] hq
  refine ⟨hq, (hfirst 1 (-2)).2 ⟨rfl, by decide, by decide⟩, ?_, (hsame [3, 7]).2 ?_⟩
  · cases hs : ofPositives? [7, -2, 3, 0, 7] with
    | none => exact absurd (hnone.1 hs 7 (by decide)) (by decide)
    | some s => exact ⟨s, rfl, hmade s (.inr hs)⟩
  · intro size hpos
    simp only [List.mem_cons, List.not_mem_nil, or_false]
    omega

end SizeSet
end PackPlan
