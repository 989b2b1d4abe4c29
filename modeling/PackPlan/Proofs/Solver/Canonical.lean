import PackPlan.Proofs.Solver.Answer

/-!
# PackPlan.Proofs.Solver.Canonical

Ties between equally many packs go to the sizes listed first, in tables and in shipments.
`Table.IsCanonical` says which totals a table has packs for, and that it has the last of all ways with
the fewest packs, in the order of lists. `Shipment.IsCanonical` says the same of a shipment without any
table: it is optimal, and every other optimal shipment has fewer packs of the first size in which they
differ. `reconstruct_canonical` is the statement about both.
-/

namespace PackPlan

/-! ## Tables -/

namespace Table

variable {sizes : List Nat} {t : Table}

/-- Which ways back there are in a table up to a ceiling, and where they lead. -/
structure IsCanonical (t : Table) (sizes : List Nat) (ceiling : Nat) : Prop where
  finished_iff : ∀ total, (∃ counts, t.reconstruct sizes total = .finished counts) ↔
    total ≤ ceiling ∧ ∃ packs, MakesUp sizes packs total
  greatest : ∀ total counts, t.reconstruct sizes total = .finished counts →
    IsGreatest (fewestCounts sizes total) counts
  otherwise : ∀ total, ¬ (total ≤ ceiling ∧ ∃ packs, MakesUp sizes packs total) →
    t.reconstruct sizes total = .broken .noRecord

theorem Sound.isCanonical {ceiling : Nat} (h : Sound sizes t) (hsize : t.counts.size = ceiling + 1)
    (hlen : sizes.length ≤ vacant) (hv : ceiling < vacant) : t.IsCanonical sizes ceiling := by
  have hreach : ∀ total, (t.minPacks? total).isSome = true ↔
      total ≤ ceiling ∧ ∃ packs, MakesUp sizes packs total := by
    intro total
    constructor
    · intro hr
      have ht := lt_size_of_isReachable hr
      exact ⟨by omega, (Solver.isReachable_iff_exists h ht (by omega)).1 hr⟩
    · rintro ⟨hle, hmade⟩
      exact (Solver.isReachable_iff_exists h (by omega) (by omega)).2 hmade
  refine ⟨fun total => ?_, fun total counts => reconstruct_greatest h hlen, fun total hno => ?_⟩
  · rw [← hreach]
    constructor
    · rintro ⟨counts, hr⟩
      rw [(reconstruct_finished hr).2.2]; rfl
    · intro hr
      obtain ⟨n, hn⟩ := Option.isSome_iff_exists.1 hr
      obtain ⟨counts, hc, -⟩ := reconstruct_ok h hlen hn
      exact ⟨counts, hc⟩
  · rw [← hreach, Bool.not_eq_true, Option.isSome_eq_false_iff, Option.isNone_iff_eq_none] at hno
    exact reconstruct_noRecord h hno

end Table

/-! ## Shipments -/

/-- How many packs of a size there are. -/
def packsOf (packs : List Allocation) (size : Nat) : Nat :=
  ((packs.filter fun a => a.size = size).map Allocation.count).sum

/-- How many packs of each size there are. -/
def Shipment.counts (s : Shipment) (sizes : List Nat) : List Nat := sizes.map (packsOf s.packs)

/-- The one optimal shipment with as many packs as possible of the first size, then of the next, and
so on. -/
structure Shipment.IsCanonical (s : Shipment) (sizes : List Nat) (quantity : Int) : Prop where
  isOptimal : s.IsOptimal sizes quantity
  isOrdered : s.IsOrdered sizes
  greatest : ∀ other : Shipment, other.IsOptimal sizes quantity → other.IsOrdered sizes →
    other = s ∨ other.counts sizes < s.counts sizes

section Counts

variable {sizes counts : List Nat} {packs : List Allocation} {size : Nat}

theorem packsOf_cons (a : Allocation) :
    packsOf (a :: packs) size = (if a.size = size then a.count else 0) + packsOf packs size := by
  by_cases h : a.size = size <;> simp [packsOf, h]

theorem packsOf_eq_zero (h : size ∉ packs.map Allocation.size) : packsOf packs size = 0 := by
  have hnone : (packs.filter fun a => a.size = size) = [] := by
    rw [List.filter_eq_nil_iff]
    intro a ha hsize
    exact h (List.mem_map.2 ⟨a, ha, by simpa using hsize⟩)
  rw [packsOf, hnone]; rfl

theorem allocations_zeros (sizes : List Nat) (n : Nat) :
    Solver.allocations sizes (List.replicate n 0) = [] := by
  induction sizes generalizing n with
  | nil => rfl
  | cons size rest ih =>
    cases n with
    | zero => simp [Solver.allocations]
    | succ n => rw [List.replicate_succ, Solver.allocations_cons, if_neg (by decide), ih]

/-- The numbers of packs give the packs back. -/
theorem allocations_packsOf (hnodup : sizes.Nodup)
    (hsub : (packs.map Allocation.size).Sublist sizes) (hpos : ∀ a ∈ packs, 0 < a.count) :
    Solver.allocations sizes (sizes.map (packsOf packs)) = packs := by
  induction sizes generalizing packs with
  | nil =>
    rw [List.sublist_nil, List.map_eq_nil_iff] at hsub
    subst hsub; rfl
  | cons size rest ih =>
    obtain ⟨hnew, hrest⟩ := List.nodup_cons.1 hnodup
    rw [List.map_cons, Solver.allocations_cons]
    rcases List.sublist_cons_iff.1 hsub with hsub | ⟨tail, hpacks, htail⟩
    · have hzero : packsOf packs size = 0 := packsOf_eq_zero fun hm => hnew (hsub.subset hm)
      rw [hzero, if_neg (by decide), ih hrest hsub hpos]
    · obtain ⟨a, others, rfl, rfl, rfl⟩ := List.map_eq_cons_iff.1 hpacks
      have hzero : packsOf others a.size = 0 := packsOf_eq_zero fun hm => hnew (htail.subset hm)
      have hlater : rest.map (packsOf (a :: others)) = rest.map (packsOf others) := by
        refine List.map_congr_left fun other ho => ?_
        have hne : a.size ≠ other := by rintro heq; exact hnew (heq ▸ ho)
        rw [packsOf_cons, if_neg hne, Nat.zero_add]
      rw [packsOf_cons, if_pos rfl, hzero, Nat.add_zero, if_pos (hpos a (List.mem_cons_self ..)),
        hlater, ih hrest htail fun b hb => hpos b (List.mem_cons_of_mem _ hb)]

/-- Of different sizes, the packs give the numbers back. -/
theorem packsOf_allocations (hnodup : sizes.Nodup) (hlen : counts.length = sizes.length) :
    sizes.map (packsOf (Solver.allocations sizes counts)) = counts := by
  induction sizes generalizing counts with
  | nil => exact (List.length_eq_zero_iff.1 hlen).symm
  | cons size rest ih =>
    cases counts with
    | nil => cases hlen
    | cons count counts =>
      obtain ⟨hnew, hrest⟩ := List.nodup_cons.1 hnodup
      have hzero : packsOf (Solver.allocations rest counts) size = 0 :=
        packsOf_eq_zero fun hm => hnew (Solver.sizes_allocations_sublist.subset hm)
      have hcounts := ih hrest (by simpa using hlen)
      rw [List.map_cons, Solver.allocations_cons]
      split
      · have hlater : rest.map (packsOf (⟨size, count⟩ :: Solver.allocations rest counts)) =
            rest.map (packsOf (Solver.allocations rest counts)) := by
          refine List.map_congr_left fun other ho => ?_
          have hne : size ≠ other := by rintro rfl; exact hnew ho
          rw [packsOf_cons, if_neg hne, Nat.zero_add]
        rw [hlater, hcounts, packsOf_cons, if_pos rfl, hzero, Nat.add_zero]
      · have hz : count = 0 := by omega
        rw [hcounts, hzero, hz]

end Counts

namespace Solver

section Ship

variable {limits : Limits} {quantity : Int} {sizes counts : List Nat} {total : Nat} {s : Shipment}

/-- The numbers of packs of an optimal shipment are fewest for its total. -/
theorem counts_mem_fewestCounts (hnodup : sizes.Nodup) (ho : s.IsOptimal sizes quantity)
    (hs : s.IsOrdered sizes) :
    allocations sizes (s.counts sizes) = s.packs ∧ s.counts sizes ∈ fewestCounts sizes s.total := by
  have hpacks := allocations_packsOf hnodup hs.sizes_sublist hs.count_pos
  have hlen : (s.counts sizes).length = sizes.length := List.length_map ..
  have hweigh : weigh sizes (s.counts sizes) = s.total := by
    rw [← sum_units_allocations, ← ho.sum_units]
    exact congrArg (fun packs => (packs.map fun a => a.size * a.count).sum) hpacks
  have hsum : (s.counts sizes).sum = s.packCount := by
    rw [← sum_counts_allocations hlen, s.packCount_eq_sum]
    exact congrArg (fun packs => (packs.map Allocation.count).sum) hpacks
  exact ⟨hpacks, hlen, hweigh, by rw [hsum]; exact ho.fewest_packs⟩

/-- The last way for the best total makes the canonical shipment. -/
theorem isCanonical_of_greatest (hnodup : sizes.Nodup)
    (ht : IsLeast (coveringTotals sizes quantity) total)
    (hg : IsGreatest (fewestCounts sizes total) counts) :
    Shipment.IsCanonical ⟨quantity, total, allocations sizes counts⟩ sizes quantity := by
  obtain ⟨hlen, hweigh, hleast⟩ := hg.1
  have hcounts : Shipment.counts ⟨quantity, total, allocations sizes counts⟩ sizes = counts :=
    packsOf_allocations hnodup hlen
  refine ⟨⟨rfl, sum_units_allocations.trans hweigh, ht, ?_⟩,
    ⟨fun a ha => count_pos_of_mem_allocations ha, sizes_allocations_sublist⟩, ?_⟩
  · rwa [Shipment.packCount_eq_sum, sum_counts_allocations hlen]
  · rintro ⟨requested, covered, packs⟩ ho hs
    obtain ⟨hpacks, hmem⟩ := counts_mem_fewestCounts hnodup ho hs
    obtain rfl : requested = quantity := ho.requested_eq
    obtain rfl : covered = total := ho.least_total.unique ht
    rw [hcounts]
    rcases eq_or_lt_of_le (hg.2 hmem) with heq | hlt
    · left
      rw [heq] at hpacks
      exact congrArg _ hpacks.symm
    · exact .inr hlt

/-- An order that needs nothing gets nothing, which is the only optimal shipment. -/
theorem isCanonical_empty (hnodup : sizes.Nodup) (hq : quantity ≤ 0) :
    (Shipment.empty quantity).IsCanonical sizes quantity := by
  have hleast : IsLeast (coveringTotals sizes quantity) 0 :=
    ⟨⟨by simpa using hq, 0, .zero⟩, fun total _ => Nat.zero_le total⟩
  have hg : IsGreatest (fewestCounts sizes 0) (List.replicate sizes.length 0) :=
    ⟨replicate_mem_fewestCounts sizes, fun others ho => le_of_eq (fewestCounts_zero ho)⟩
  have hcanonical := isCanonical_of_greatest hnodup hleast hg
  rwa [allocations_zeros] at hcanonical

theorem solve_isCanonical {set : SizeSet}
    (hv : 0 < quantity → quantity.toNat + set.largest - 1 < vacant)
    (h : solve limits quantity set = .ok s) : s.IsCanonical set.toList quantity := by
  have hnodup : set.toList.Nodup := set.pairwise.imp fun hgt => (Nat.ne_of_lt hgt).symm
  have hlen := set.size_le_largest
  by_cases hq : 0 < quantity
  · have hmax := vacant_lt_maxCount
    have hvq := hv hq
    rw [SizeSet.size] at hlen
    rw [solve] at h
    rw [set.toList_eq_cons] at h hnodup hlen ⊢
    obtain ⟨t, hb, hs⟩ := solveList_eq_ok hq (by omega) h
    obtain ⟨hsound, hsize⟩ := Table.build_sound hb
    obtain ⟨total, counts, hf, hr, rfl⟩ := shipment_eq_ok.1 hs
    exact isCanonical_of_greatest hnodup (isLeast_coveringTotals hsound hsize hvq hf)
      (Table.reconstruct_greatest hsound (by omega) hr)
  · have hq0 : quantity ≤ 0 := by omega
    rw [solve_of_nonpos hq0] at h
    cases h
    exact isCanonical_empty hnodup hq0

/-- **Ties go to the sizes listed first.** A table gives the packs of just the totals that can be made
up to its ceiling, and of all ways with the fewest packs it gives the last in the order of lists. A
shipment is therefore the one optimal shipment with as many packs as possible of the largest size,
then of the next, and so on. -/
theorem reconstruct_canonical {ceiling : Nat} (hlen : sizes.length < 2 ^ 32)
    (hc : ceiling < 2 ^ 32 - 1) :
    (∃ t, Table.build sizes ceiling = .ok t ∧ t.IsCanonical sizes ceiling) ∧
    ∀ (limits : Limits) (quantity : Int) (set : SizeSet) (s : Shipment),
      (0 < quantity → quantity.toNat + set.largest - 1 < 2 ^ 32 - 1) →
      solve limits quantity set = .ok s → s.IsCanonical set.toList quantity := by
  have hfit : sizes.length ≤ vacant := Nat.le_of_lt_succ hlen
  constructor
  · obtain ⟨t, hb⟩ := Table.build_ok hfit (Nat.lt_trans hc vacant_lt_maxCount)
    obtain ⟨hsound, hsize⟩ := Table.build_sound hb
    exact ⟨t, hb, hsound.isCanonical hsize hfit hc⟩
  · intro limits quantity set s hv h
    exact solve_isCanonical hv h

/-- Four ways to ten with two packs, in a list out of order; seven cannot be made. -/
theorem reconstruct_canonical_tied :
    [4, 0, 5, 6, 5].length < 2 ^ 32 ∧ 10 < 2 ^ 32 - 1 ∧
      (∃ t, Table.build [4, 0, 5, 6, 5] 10 = .ok t ∧
        t.reconstruct [4, 0, 5, 6, 5] 10 = .finished [1, 0, 0, 1, 0] ∧
        IsGreatest (fewestCounts [4, 0, 5, 6, 5] 10) [1, 0, 0, 1, 0] ∧
        ¬ ∃ counts, t.reconstruct [4, 0, 5, 6, 5] 7 = .finished counts) ∧
      (0 < (10 : Int) → (10 : Int).toNat + 6 - 1 < 2 ^ 32 - 1) ∧
      solve {} 10 ⟨[6, 5, 4], by decide, by decide, by decide⟩ = .ok ⟨10, 10, [⟨6, 1⟩, ⟨4, 1⟩]⟩ ∧
      Shipment.IsCanonical ⟨10, 10, [⟨6, 1⟩, ⟨4, 1⟩]⟩ [6, 5, 4] 10 := by
  have hsolve : solve {} 10 ⟨[6, 5, 4], by decide, by decide, by decide⟩ =
      .ok ⟨10, 10, [⟨6, 1⟩, ⟨4, 1⟩]⟩ := by cbv
  have hrun : (Table.build [4, 0, 5, 6, 5] 10).map (fun t =>
      (t.reconstruct [4, 0, 5, 6, 5] 10, t.reconstruct [4, 0, 5, 6, 5] 7)) =
        .ok (.finished [1, 0, 0, 1, 0], .broken .noRecord) := by cbv
  obtain ⟨⟨t, hb, ht⟩, hship⟩ :=
    @reconstruct_canonical [4, 0, 5, 6, 5] 10 (by decide) (by decide)
  rw [hb] at hrun
  obtain ⟨hten, hseven⟩ := Prod.mk.inj (Except.ok.inj hrun)
  refine ⟨by decide, by decide, ⟨t, hb, hten, ht.greatest 10 _ hten, ?_⟩, by decide, hsolve,
    hship {} 10 _ _ (by decide) hsolve⟩
  rintro ⟨counts, hr⟩
  rw [hseven] at hr
  cases hr

end Ship
end Solver
end PackPlan
