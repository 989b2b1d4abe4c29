import PackPlan.Proofs.Solver.TieBreak
import PackPlan.Solver

/-!
# PackPlan.Proofs.Solver.Optimal

The packs chosen for an order are optimal. `solveList_ok` says when there are any: the first size is
positive and the ceiling that it gives is within the limit and below the largest value of a cell. The
other sizes are free: they may come in any order, repeat, be zero, or be larger than the ceiling.
`solveList_optimal` says what they are.

A ceiling never cuts off the best total. Rounding the quantity up to a whole number of the first size
stays within the ceiling (`exists_multiple`), so the best total is not larger, and a total within the
ceiling needs fewer packs than a cell can count (`MakesUp.madeWithin_self`).
-/

namespace PackPlan

/-- A total is made with at most as many packs as it has units, since empty packs can be left out. -/
theorem MakesUp.madeWithin_self {sizes : List Nat} :
    ∀ (total : Nat) {packs : Multiset Nat}, MakesUp sizes packs total →
      MadeWithin sizes total total := by
  intro total
  induction total using Nat.strongRecOn with
  | ind total ih =>
    intro packs h
    cases total with
    | zero => exact madeWithin_nothing sizes 0
    | succ n =>
      obtain ⟨size, hs, hpos⟩ := h.exists_pos (Nat.succ_pos n)
      have hle := h.size_le hs
      have hrest := ih (n + 1 - size) (by omega) (h.erase hs)
      rw [madeWithin_succ (Nat.succ_pos n)]
      exact ⟨size, h.1 size hs, hpos, hle, hrest.mono (by omega)⟩

namespace Solver

section Allocations

variable {sizes counts : List Nat}

theorem allocations_cons (size count : Nat) (sizes counts : List Nat) :
    allocations (size :: sizes) (count :: counts) =
      if 0 < count then ⟨size, count⟩ :: allocations sizes counts else allocations sizes counts := by
  by_cases h : 0 < count <;> simp [allocations, h]

theorem sum_units_allocations :
    ((allocations sizes counts).map fun a => a.size * a.count).sum = weigh sizes counts := by
  induction sizes generalizing counts with
  | nil => simp [allocations, weigh]
  | cons size sizes ih =>
    cases counts with
    | nil => simp [allocations, weigh]
    | cons count counts =>
      rw [allocations_cons, weigh_cons, ← ih]
      split
      · simp
      · have hz : count = 0 := by omega
        simp [hz]

theorem sum_counts_allocations (hlen : counts.length = sizes.length) :
    ((allocations sizes counts).map Allocation.count).sum = counts.sum := by
  induction sizes generalizing counts with
  | nil =>
    rw [List.length_nil, List.length_eq_zero_iff] at hlen
    rw [hlen]; rfl
  | cons size sizes ih =>
    cases counts with
    | nil => cases hlen
    | cons count counts =>
      have hcounts : counts.length = sizes.length := by simpa using hlen
      have hrest := ih hcounts
      rw [allocations_cons, List.sum_cons]
      split
      · rw [List.map_cons, List.sum_cons, hrest]
      · omega

theorem sizes_allocations_sublist :
    ((allocations sizes counts).map Allocation.size).Sublist sizes := by
  induction sizes generalizing counts with
  | nil => simp [allocations]
  | cons size sizes ih =>
    cases counts with
    | nil => simp [allocations]
    | cons count counts =>
      rw [allocations_cons]
      split
      · exact ih.cons_cons size
      · exact ih.cons size

theorem count_pos_of_mem_allocations {a : Allocation} (h : a ∈ allocations sizes counts) :
    0 < a.count := by
  simp only [allocations, List.mem_map, List.mem_filter] at h
  obtain ⟨p, ⟨-, hp⟩, rfl⟩ := h
  simpa using hp

end Allocations

/-! ## From a table to a shipment -/

theorem shipment_eq_ok {table : Table} {quantity : Int} {sizes : List Nat} {s : Shipment} :
    shipment table quantity sizes = .ok s ↔
      ∃ total counts, table.firstFrom? quantity.toNat = some total ∧
        table.reconstruct sizes total = .finished counts ∧
        s = ⟨quantity, total, allocations sizes counts⟩ := by
  simp only [shipment]
  constructor
  · intro h
    split at h
    · cases h
    · rename_i total ht
      split at h
      · rename_i counts hc; cases h
        exact ⟨total, counts, ht, hc, rfl⟩
      · cases h
      · cases h
  · rintro ⟨total, counts, ht, hc, rfl⟩
    simp only [ht, hc]

theorem ceiling_eq {limits : Limits} {quantity : Int} {largest : Nat} (hq : 0 < quantity)
    (hsum : quantity.toNat + largest ≤ maxCount) :
    ceiling limits quantity largest =
      if limits.maxCeiling < quantity.toNat + largest - 1 then
        .error (.beyondLimit quantity (quantity.toNat + largest - 1) limits.maxCeiling)
      else .ok (quantity.toNat + largest - 1) := by
  have hguard : ¬ (quantity < 0 ∨ maxCount < quantity.toNat + largest ∨
      quantity.toNat + largest = 0) := by omega
  simp only [ceiling, if_neg hguard]

theorem vacant_lt_maxCount : vacant < maxCount := by decide

section Table

variable {limits : Limits} {quantity : Int} {first : Nat} {rest : List Nat} {s : Shipment}

/-- A positive order is answered from the table up to its ceiling, if this is within the limit. -/
theorem solveList_eq (hq : 0 < quantity) (hsum : quantity.toNat + first ≤ maxCount) :
    solveList limits quantity (first :: rest) =
      if limits.maxCeiling < quantity.toNat + first - 1 then
        .error (.beyondLimit quantity (quantity.toNat + first - 1) limits.maxCeiling)
      else
        match Table.build (first :: rest) (quantity.toNat + first - 1) with
        | .error f => .error (.fault f)
        | .ok table => shipment table quantity (first :: rest) := by
  have hpos : ¬ quantity ≤ 0 := by omega
  simp only [solveList, if_neg hpos, ceiling_eq hq hsum]
  by_cases hlimit : limits.maxCeiling < quantity.toNat + first - 1
  · simp only [if_pos hlimit]
  · cases hb : Table.build (first :: rest) (quantity.toNat + first - 1) with
    | error f => simp only [if_neg hlimit, hb]
    | ok table => simp only [if_neg hlimit, hb]

theorem solveList_eq_ok (hq : 0 < quantity) (hsum : quantity.toNat + first ≤ maxCount)
    (h : solveList limits quantity (first :: rest) = .ok s) :
    ∃ table, Table.build (first :: rest) (quantity.toNat + first - 1) = .ok table ∧
      shipment table quantity (first :: rest) = .ok s := by
  rw [solveList_eq hq hsum] at h
  split at h
  · cases h
  · split at h
    · cases h
    · rename_i table hb
      exact ⟨table, hb, h⟩

end Table

/-! ## The best total -/

/-- Rounding up to a whole number of a size stays below the next one. -/
theorem exists_multiple {n size : Nat} (hs : 0 < size) :
    ∃ k, n ≤ k * size ∧ k * size ≤ n + size - 1 := by
  have hdiv := Nat.div_add_mod (n + size - 1) size
  have hmod := Nat.mod_lt (n + size - 1) hs
  rw [Nat.mul_comm] at hdiv
  exact ⟨(n + size - 1) / size, by omega, by omega⟩

theorem firstFrom?_isSome {t : Table} {start k : Nat} (hk : start ≤ k) (hr : t.isReachable k = true) :
    ∃ total, t.firstFrom? start = some total := by
  fun_induction Table.firstFrom? t start with
  | case1 start => exact ⟨start, rfl⟩
  | case2 start hlt hno ih =>
    have hne : start ≠ k := by rintro rfl; exact hno hr
    exact ih (by omega)
  | case3 start hge =>
    have := Table.lt_size_of_isReachable hr
    omega

section Best

variable {sizes : List Nat} {t : Table} {quantity : Int} {total ceiling : Nat}

/-- Below the largest value of a cell, a table marks just what can be made. -/
theorem isReachable_iff_exists (h : Table.Sound sizes t) (ht : total < t.counts.size)
    (hv : total < vacant) :
    t.isReachable total = true ↔ ∃ packs, MakesUp sizes packs total := by
  rw [Table.isReachable_iff h ht]
  constructor
  · rintro ⟨n, -, packs, hp, -⟩
    exact ⟨packs, hp⟩
  · rintro ⟨packs, hp⟩
    exact ⟨total, hv, hp.madeWithin_self total⟩

/-- What the search finds is best among all totals, those beyond the ceiling included. -/
theorem isLeast_coveringTotals (h : Table.Sound sizes t) (hsize : t.counts.size = ceiling + 1)
    (hv : ceiling < vacant) (hf : t.firstFrom? quantity.toNat = some total) :
    IsLeast (coveringTotals sizes quantity) total := by
  obtain ⟨⟨hle, hr⟩, hlow⟩ := (Table.firstFrom?_eq_some t quantity.toNat).1 hf
  have ht := Table.lt_size_of_isReachable hr
  refine ⟨⟨by omega, (isReachable_iff_exists h ht (by omega)).1 hr⟩, ?_⟩
  rintro k ⟨hk, hmade⟩
  by_cases hkc : k ≤ ceiling
  · exact hlow ⟨by omega, (isReachable_iff_exists h (by omega) (by omega)).2 hmade⟩
  · omega

end Best

section Solve

variable {limits : Limits} {quantity : Int} {first : Nat} {rest : List Nat} {s : Shipment}

/-- An order within the limit has a shipment, whatever sizes follow the first. -/
theorem solveList_ok (hq : 0 < quantity) (hfirst : 0 < first)
    (hlen : (first :: rest).length ≤ vacant) (hv : quantity.toNat + first - 1 < vacant)
    (hlimit : quantity.toNat + first - 1 ≤ limits.maxCeiling) :
    ∃ s, solveList limits quantity (first :: rest) = .ok s := by
  have hmax := vacant_lt_maxCount
  obtain ⟨t, hb⟩ := Table.build_ok hlen (Nat.lt_trans hv hmax)
  obtain ⟨hsound, hsize⟩ := Table.build_sound hb
  obtain ⟨k, hqk, hkc⟩ := exists_multiple (n := quantity.toNat) hfirst
  have hmade := MakesUp.replicate (List.mem_cons_self (a := first) (l := rest)) k
  have hr := (isReachable_iff_exists hsound (by omega) (by omega)).2 ⟨_, hmade⟩
  obtain ⟨total, hf⟩ := firstFrom?_isSome hqk hr
  obtain ⟨⟨-, hreach⟩, -⟩ := (Table.firstFrom?_eq_some t quantity.toNat).1 hf
  obtain ⟨n, hn⟩ := Option.isSome_iff_exists.1 hreach
  obtain ⟨counts, hc, -⟩ := Table.reconstruct_ok hsound hlen hn
  refine ⟨⟨quantity, total, allocations (first :: rest) counts⟩, ?_⟩
  rw [solveList_eq hq (by omega), if_neg (by omega), hb]
  exact shipment_eq_ok.2 ⟨total, counts, hf, hc, rfl⟩

theorem isOptimal_of_solveList (hq : 0 < quantity) (hv : quantity.toNat + first - 1 < vacant)
    (h : solveList limits quantity (first :: rest) = .ok s) :
    s.IsOptimal (first :: rest) quantity := by
  have hmax := vacant_lt_maxCount
  obtain ⟨t, hb, hs⟩ := solveList_eq_ok hq (by omega) h
  obtain ⟨hsound, hsize⟩ := Table.build_sound hb
  obtain ⟨total, counts, hf, hc, rfl⟩ := shipment_eq_ok.1 hs
  obtain ⟨hlen, hweigh, hmin⟩ := Table.reconstruct_finished hc
  have hfewest := ((Table.minPacks?_eq_some hsound (Table.lt_size_of_minPacks? hmin)).1 hmin).1
  refine ⟨rfl, ?_, isLeast_coveringTotals hsound hsize hv hf, ?_⟩
  · exact sum_units_allocations.trans hweigh
  · rw [← sum_counts_allocations hlen] at hfewest
    rw [Shipment.packCount_eq_sum]
    exact hfewest

theorem isOrdered_of_solveList (h : solveList limits quantity (first :: rest) = .ok s) :
    s.IsOrdered (first :: rest) := by
  simp only [solveList] at h
  split at h
  · cases h
    exact ⟨by simp [Shipment.empty], by simp [Shipment.empty]⟩
  · split at h
    · cases h
    · split at h
      · cases h
      · rename_i table hb
        obtain ⟨total, counts, -, -, rfl⟩ := shipment_eq_ok.1 h
        exact ⟨fun a ha => count_pos_of_mem_allocations ha, sizes_allocations_sublist⟩

/-- **The packs of an order are optimal.** An order whose ceiling is within the limit has a shipment,
and whenever there is one, its total is the smallest that covers the quantity, its packs are the
fewest for this total, and they come in the order of the sizes. -/
theorem solveList_optimal (hq : 0 < quantity) (hfirst : 0 < first)
    (hlen : (first :: rest).length < 2 ^ 32) (hv : quantity.toNat + first - 1 < 2 ^ 32 - 1) :
    (quantity.toNat + first - 1 ≤ limits.maxCeiling →
      ∃ s, solveList limits quantity (first :: rest) = .ok s) ∧
    ∀ s, solveList limits quantity (first :: rest) = .ok s →
      s.IsOptimal (first :: rest) quantity ∧ s.IsOrdered (first :: rest) ∧
        ((first :: rest).Pairwise (· > ·) → (s.packs.map Allocation.size).Pairwise (· > ·)) := by
  refine ⟨fun hlimit => solveList_ok hq hfirst (Nat.le_of_lt_succ hlen) hv hlimit, ?_⟩
  intro s h
  have hordered := isOrdered_of_solveList h
  exact ⟨isOptimal_of_solveList hq hv h, hordered, fun hdesc => hdesc.sublist hordered.sizes_sublist⟩

/-- Sizes out of order, with an empty one and one beyond the ceiling. -/
theorem solveList_optimal_unsorted :
    (0 : Int) < 7 ∧ 0 < 5 ∧ [5, 0, 3, 40, 3].length < 2 ^ 32 ∧ (7 : Int).toNat + 5 - 1 < 2 ^ 32 - 1 ∧
      solveList {} 7 [5, 0, 3, 40, 3] = .ok ⟨7, 8, [⟨5, 1⟩, ⟨3, 1⟩]⟩ ∧
      Shipment.IsOptimal ⟨7, 8, [⟨5, 1⟩, ⟨3, 1⟩]⟩ [5, 0, 3, 40, 3] 7 := by
  have hsolve : solveList {} 7 [5, 0, 3, 40, 3] = .ok ⟨7, 8, [⟨5, 1⟩, ⟨3, 1⟩]⟩ := by cbv
  have h := @solveList_optimal {} 7 5 [0, 3, 40, 3] (by decide) (by decide) (by decide) (by decide)
  exact ⟨by decide, by decide, by decide, by decide, hsolve, (h.2 _ hsolve).1⟩

end Solve
end Solver
end PackPlan
