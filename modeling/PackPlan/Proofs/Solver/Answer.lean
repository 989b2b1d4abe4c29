import PackPlan.Proofs.SizeSet.Attainable
import PackPlan.Proofs.Solver.Optimal

/-!
# PackPlan.Proofs.Solver.Answer

Which orders have an answer. For every set of sizes that there can be, an order within the limit has a
shipment, and one beyond it is refused with the ceiling it would take (`solve_answered`). A table
never contradicts itself, so none of the other errors arises.
-/

namespace PackPlan
namespace Solver

section Answer

variable {limits : Limits} {quantity : Int} {sizes : SizeSet}

theorem solve_of_nonpos (hq : quantity ≤ 0) : solve limits quantity sizes = .ok (.empty quantity) := by
  simp only [solve, solveList, if_pos hq]

/-- A quantity and a size of such a set add up within 64 bits. -/
theorem sum_le_maxCount (hs : sizes.IsInRange) (hq : IsQuantity quantity) :
    quantity.toNat + sizes.largest ≤ maxCount := by
  have hlargest := hs sizes.largest (List.head_mem sizes.ne_nil)
  have hmax := hq.2
  have htwice : maxQuantity + maxQuantity ≤ maxCount := by decide
  omega

theorem solve_beyond_limit (hsum : quantity.toNat + sizes.largest ≤ maxCount) (hq : 0 < quantity)
    (hlimit : limits.maxCeiling < quantity.toNat + sizes.largest - 1) :
    solve limits quantity sizes =
      .error (.beyondLimit quantity (quantity.toNat + sizes.largest - 1) limits.maxCeiling) := by
  rw [solve, sizes.toList_eq_cons, solveList_eq hq hsum, if_pos hlimit]

theorem solve_within_limit (hl : limits.maxCeiling < vacant) (hq : 0 < quantity)
    (hlimit : quantity.toNat + sizes.largest - 1 ≤ limits.maxCeiling) :
    ∃ s, solve limits quantity sizes = .ok s := by
  have hlen := sizes.size_le_largest
  rw [SizeSet.size] at hlen
  rw [solve]
  rw [sizes.toList_eq_cons] at hlen ⊢
  exact solveList_ok hq sizes.largest_pos (by omega) (by omega) hlimit

theorem ceiling_le_of_ok {largest found : Nat} (h : ceiling limits quantity largest = .ok found) :
    quantity.toNat + largest - 1 ≤ limits.maxCeiling := by
  simp only [ceiling] at h
  split at h
  · cases h
  · split at h
    · cases h
    · rename_i hlimit
      exact Nat.le_of_not_lt hlimit

/-- A shipment for a positive quantity comes from a search within the limit. -/
theorem within_limit_of_solve {s : Shipment} (hq : 0 < quantity)
    (h : solve limits quantity sizes = .ok s) :
    quantity.toNat + sizes.largest - 1 ≤ limits.maxCeiling := by
  have hpos : ¬ quantity ≤ 0 := by omega
  rw [solve, sizes.toList_eq_cons] at h
  simp only [solveList, if_neg hpos] at h
  cases hc : ceiling limits quantity sizes.largest with
  | error e => rw [hc] at h; cases h
  | ok found => exact ceiling_le_of_ok hc

/-- **Every order is answered or refused for its ceiling.** An order that needs nothing has the empty
shipment. For any other, no sum leaves 64 bits; beyond the limit it is refused with its ceiling, and
within the limit it has a shipment. No other error arises. -/
theorem solve_answered (hs : sizes.Attainable) (hq : IsQuantity quantity)
    (hl : limits.maxCeiling ≤ 2 ^ 32 - 2) :
    (quantity ≤ 0 → solve limits quantity sizes = .ok (.empty quantity)) ∧
    (0 < quantity → quantity.toNat + sizes.largest ≤ maxCount ∧
      (limits.maxCeiling < quantity.toNat + sizes.largest - 1 →
        solve limits quantity sizes =
          .error (.beyondLimit quantity (quantity.toNat + sizes.largest - 1) limits.maxCeiling)) ∧
      (quantity.toNat + sizes.largest - 1 ≤ limits.maxCeiling →
        ∃ s, solve limits quantity sizes = .ok s)) ∧
    ∀ e, solve limits quantity sizes = .error e →
      e = .beyondLimit quantity (quantity.toNat + sizes.largest - 1) limits.maxCeiling := by
  have hsum := sum_le_maxCount hs.isInRange hq
  have hvacant : limits.maxCeiling < vacant := Nat.lt_of_le_of_lt hl (by decide)
  refine ⟨solve_of_nonpos, ?_, ?_⟩
  · intro hpos
    exact ⟨hsum, solve_beyond_limit hsum hpos, solve_within_limit hvacant hpos⟩
  · intro e he
    by_cases hpos : 0 < quantity
    · by_cases hlimit : limits.maxCeiling < quantity.toNat + sizes.largest - 1
      · rw [solve_beyond_limit hsum hpos hlimit] at he
        cases he; rfl
      · obtain ⟨s, hok⟩ := solve_within_limit hvacant hpos (Nat.le_of_not_lt hlimit)
        rw [hok] at he
        cases he
    · rw [solve_of_nonpos (by omega)] at he
      cases he

/-- A small and the largest quantity, with the standard sizes and the default limit. -/
theorem solve_answered_standard :
    SizeSet.standard.Attainable ∧ IsQuantity 251 ∧ IsQuantity maxQuantity ∧
      ({} : Limits).maxCeiling ≤ 2 ^ 32 - 2 ∧ (∃ s, solve {} 251 .standard = .ok s) ∧
      solve {} maxQuantity .standard = .error (.beyondLimit maxQuantity (2 ^ 63 + 4998) 10000000) := by
  have hsmall := @solve_answered {} 251 .standard .standard (by decide) (by decide)
  have hlargest := @solve_answered {} maxQuantity .standard .standard (by decide) (by decide)
  exact ⟨.standard, by decide, by decide, by decide, (hsmall.2.1 (by decide)).2.2 (by decide),
    (hlargest.2.1 (by decide)).2.1 (by decide)⟩

end Answer
end Solver
end PackPlan
