import PackPlan.Proofs.Solver.Canonical
import PackPlan.Report

/-!
# PackPlan.Proofs.Report.Balance

The figures of a report on what the solver chose. A report can be made of any shipment, so the units
of a row are clamped and a surplus is not counted below zero. For a chosen shipment neither happens:
the rows add up to what is shipped (`AddsUp`), and what is shipped is the order and the surplus
(`Balances`).

The bounds come from the total being the smallest that covers the order. It is at most the order
rounded up to a whole number of any one size (`Shipment.IsOptimal.total_lt`). For the largest size this
keeps all products within the search ceiling; for the smallest it bounds the surplus by less than a
pack. The ceiling alone would bound the surplus by the largest size only.
-/

namespace PackPlan

/-! ## Optimal shipments -/

namespace Shipment.IsOptimal

variable {s : Shipment} {sizes : List Nat} {quantity : Int} {size : Nat} {a : Allocation}

/-- Rounding the order up to a whole number of one size covers it, so no more than that is shipped. -/
theorem total_lt (h : s.IsOptimal sizes quantity) (hs : size ∈ sizes) (hpos : 0 < size) :
    s.total < quantity.toNat + size := by
  obtain ⟨k, hcovers, hnext⟩ := Solver.exists_multiple (n := quantity.toNat) hpos
  have hmade : k * size ∈ coveringTotals sizes quantity :=
    ⟨by omega, _, MakesUp.replicate hs k⟩
  have hleast := h.least_total.2 hmade
  omega

theorem size_mul_count_le (h : s.IsOptimal sizes quantity) (ha : a ∈ s.packs) :
    a.size * a.count ≤ s.total := by
  rw [← h.sum_units]
  exact List.le_sum_of_mem (List.mem_map_of_mem ha)

/-- Packs that are not empty are no more than the units in them. -/
theorem packCount_le_total (h : s.IsOptimal sizes quantity) (hpos : ∀ a ∈ s.packs, 0 < a.size) :
    s.packCount ≤ s.total := by
  rw [s.packCount_eq_sum, ← h.sum_units]
  exact List.sum_le_sum fun a ha => Nat.le_mul_of_pos_left _ (hpos a ha)

end Shipment.IsOptimal

/-! ## Figures -/

namespace Report

/-- The rows of a report add up to its figures, and no figure is beyond what can be counted. -/
structure AddsUp (r : Report) : Prop where
  counted : ∀ a ∈ r.packs, a.size * a.count ≤ maxCount
  unclamped : ∀ a ∈ r.packs, a.units = a.size * a.count
  shipped : (r.packs.map Allocation.units).sum = r.shipped
  packCount : (r.packs.map Allocation.count).sum = r.packCount
  packCount_le : r.packCount ≤ maxCount

/-- What is shipped for an order is the order and the surplus. The surplus is less than any pack of
the set, so without any one of the packs too little would be shipped. -/
structure Balances (r : Report) (quantity : Int) (sizes : SizeSet) : Prop where
  requested : r.requested = quantity
  surplus_le : r.surplus ≤ r.shipped
  difference : (r.shipped : Int) - r.surplus = r.requested
  surplus_lt : r.surplus < sizes.smallest
  needed : ∀ a ∈ r.packs, (r.shipped : Int) - a.size < r.requested

section Chosen

variable {limits : Limits} {quantity : Int} {sizes : SizeSet} {s : Shipment}

theorem addsUp_ofShipment {listed : List Nat} (h : s.IsOptimal listed quantity)
    (hpos : ∀ a ∈ s.packs, 0 < a.size) (hfit : s.total ≤ maxCount) : (ofShipment s).AddsUp := by
  have hcounted : ∀ a ∈ s.packs, a.size * a.count ≤ maxCount := fun a ha =>
    (h.size_mul_count_le ha).trans hfit
  have hunits : ∀ a ∈ s.packs, a.units = a.size * a.count := fun a ha =>
    clampCount_of_le (hcounted a ha)
  refine ⟨hcounted, hunits, ?_, s.packCount_eq_sum.symm, (h.packCount_le_total hpos).trans hfit⟩
  show (s.packs.map Allocation.units).sum = s.total
  rw [← h.sum_units, List.map_congr_left hunits]

theorem balances_ofShipment (h : s.IsOptimal sizes.toList quantity) (hs : s.IsOrdered sizes.toList)
    (hq : 0 < quantity) : (ofShipment s).Balances quantity sizes := by
  have hcovers : quantity ≤ s.total := h.least_total.1.1
  have hsurplus : s.surplus = s.total - quantity.toNat := by
    rw [Shipment.surplus, h.requested_eq]
  have hlt : s.total < quantity.toNat + sizes.smallest :=
    h.total_lt (List.getLast_mem sizes.ne_nil) sizes.smallest_pos
  have hsmallest : s.surplus < sizes.smallest := by omega
  have hdifference : (s.total : Int) - s.surplus = quantity := by omega
  refine ⟨h.requested_eq, ?_, ?_, hsmallest, ?_⟩
  · show s.surplus ≤ s.total
    omega
  · show (s.total : Int) - s.surplus = s.requested
    rw [hdifference, h.requested_eq]
  · intro a ha
    have hle := sizes.smallest_le (hs.sizes_sublist.subset (List.mem_map_of_mem ha))
    show (s.total : Int) - a.size < s.requested
    rw [h.requested_eq]
    omega

/-- **The report on a chosen shipment adds up.** No units are clamped, the rows add up to what is
shipped and to the number of packs. For an order of something, what is shipped is the order and a
surplus of less than the smallest pack; for an order of nothing there is nothing in the report. -/
theorem chosen_adds_up (hl : limits.maxCeiling ≤ 2 ^ 32 - 2)
    (h : Solver.solve limits quantity sizes = .ok s) :
    (ofShipment s).AddsUp ∧
      (0 < quantity → (ofShipment s).Balances quantity sizes) ∧
      (quantity ≤ 0 → ofShipment s = ⟨quantity, 0, 0, 0, []⟩) := by
  have hvacant : limits.maxCeiling < vacant := Nat.lt_of_le_of_lt hl (by decide)
  have hlimit : 0 < quantity → quantity.toNat + sizes.largest - 1 < vacant := fun hq =>
    Nat.lt_of_le_of_lt (Solver.within_limit_of_solve hq h) hvacant
  have hcanonical := Solver.solve_isCanonical hlimit h
  have hoptimal := hcanonical.isOptimal
  have hpos : ∀ a ∈ s.packs, 0 < a.size := fun a ha =>
    sizes.pos _ (hcanonical.isOrdered.sizes_sublist.subset (List.mem_map_of_mem ha))
  have hempty : quantity ≤ 0 → s = .empty quantity := fun hq =>
    Except.ok.inj (h.symm.trans (Solver.solve_of_nonpos hq))
  have hfit : s.total ≤ maxCount := by
    by_cases hq : 0 < quantity
    · have hlt : s.total < quantity.toNat + sizes.largest :=
        hoptimal.total_lt (List.head_mem sizes.ne_nil) sizes.largest_pos
      have hceiling := hlimit hq
      have hmax := Solver.vacant_lt_maxCount
      omega
    · rw [hempty (by omega)]
      exact Nat.zero_le _
  refine ⟨addsUp_ofShipment hoptimal hpos hfit,
    balances_ofShipment hoptimal hcanonical.isOrdered, fun hq => ?_⟩
  rw [hempty hq, ofShipment, Shipment.surplus_empty, Shipment.packCount_empty]
  rfl

/-- Packs of two sizes with one unit too many, under the largest limit. -/
theorem chosen_adds_up_mixed :
    ∃ sizes : SizeSet, sizes.toList = [9, 7] ∧
      (⟨2 ^ 32 - 2⟩ : Limits).maxCeiling ≤ 2 ^ 32 - 2 ∧
      Solver.solve ⟨2 ^ 32 - 2⟩ 22 sizes = .ok ⟨22, 23, [⟨9, 1⟩, ⟨7, 2⟩]⟩ ∧
      (ofShipment ⟨22, 23, [⟨9, 1⟩, ⟨7, 2⟩]⟩).AddsUp ∧
      (ofShipment ⟨22, 23, [⟨9, 1⟩, ⟨7, 2⟩]⟩).Balances 22 sizes := by
  have hsolve : Solver.solve ⟨2 ^ 32 - 2⟩ 22 ⟨[9, 7], by decide, by decide, by decide⟩ =
      .ok ⟨22, 23, [⟨9, 1⟩, ⟨7, 2⟩]⟩ := by cbv
  obtain ⟨hadds, hbalances, -⟩ := chosen_adds_up (Nat.le_refl _) hsolve
  exact ⟨_, rfl, Nat.le_refl _, hsolve, hadds, hbalances (by decide)⟩

end Chosen

end Report
end PackPlan
