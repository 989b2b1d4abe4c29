import PackPlan.Proofs.Solver.Canonical

/-!
# PackPlan.Proofs.Solver.Comparison

Two orders side by side: for more units, for the units of both, or with more sizes to choose from.
Each is answered from a table of its own, up to another ceiling or for other sizes, but optimal and
canonical shipments are described without tables, and so they are compared.

* `coveringTotals_anti`, `coveringTotals_mono`, `add_mem_coveringTotals`: the totals to choose from.
* `Shipment.IsCanonical.unique`, `Shipment.IsCanonical.withQuantity`: an order for no more than the
  total of a smaller order has the same packs.
* `solve_compared`: what this makes of the answers.
-/

namespace PackPlan

section Totals

variable {sizes sizes' : List Nat} {q q' : Int} {total total' : Nat}

/-- Fewer totals cover a larger order. -/
theorem coveringTotals_anti (hle : q ≤ q') : coveringTotals sizes q' ⊆ coveringTotals sizes q :=
  fun _ ⟨hq, hmade⟩ => ⟨hle.trans hq, hmade⟩

/-- More sizes make more totals. -/
theorem coveringTotals_mono (hs : ∀ size ∈ sizes, size ∈ sizes') :
    coveringTotals sizes q ⊆ coveringTotals sizes' q :=
  fun _ ⟨hq, packs, hp⟩ => ⟨hq, packs, hp.mono hs⟩

theorem packNumbers_mono (hs : ∀ size ∈ sizes, size ∈ sizes') :
    packNumbers sizes total ⊆ packNumbers sizes' total :=
  fun _ ⟨packs, hp, hc⟩ => ⟨packs, hp.mono hs, hc⟩

/-- The packs for two orders cover both. -/
theorem add_mem_coveringTotals (h : total ∈ coveringTotals sizes q)
    (h' : total' ∈ coveringTotals sizes q') : total + total' ∈ coveringTotals sizes (q + q') := by
  obtain ⟨hq, packs, hp⟩ := h
  obtain ⟨hq', packs', hp'⟩ := h'
  exact ⟨by push_cast; omega, packs + packs', hp.add hp'⟩

/-- Orders between a quantity and its best total have the same best total. -/
theorem isLeast_coveringTotals_between (h : IsLeast (coveringTotals sizes q) total) (hle : q ≤ q')
    (hq : q' ≤ total) : IsLeast (coveringTotals sizes q') total :=
  ⟨⟨hq, h.1.2⟩, fun _ hk => h.2 (coveringTotals_anti hle hk)⟩

end Totals

/-! ## Shipments -/

namespace Shipment

variable {sizes sizes' : List Nat} {q q' : Int} {s s' : Shipment}

theorem IsOptimal.total_le (h : s.IsOptimal sizes q) (h' : s'.IsOptimal sizes' q')
    (hsub : coveringTotals sizes' q' ⊆ coveringTotals sizes q) : s.total ≤ s'.total :=
  h.least_total.2 (hsub h'.least_total.1)

theorem IsOptimal.total_le_add {both : Shipment} (h : s.IsOptimal sizes q)
    (h' : s'.IsOptimal sizes q') (hboth : both.IsOptimal sizes (q + q')) :
    both.total ≤ s.total + s'.total :=
  hboth.least_total.2 (add_mem_coveringTotals h.least_total.1 h'.least_total.1)

/-- More sizes to choose from take no more packs for the same total. -/
theorem IsOptimal.packCount_le (h : s.IsOptimal sizes q) (h' : s'.IsOptimal sizes' q')
    (hs : ∀ size ∈ sizes', size ∈ sizes) (htotal : s.total = s'.total) :
    s.packCount ≤ s'.packCount := by
  have hfewest := h.fewest_packs
  rw [htotal] at hfewest
  exact hfewest.2 (packNumbers_mono hs h'.fewest_packs.1)

/-- The packs of an optimal shipment are optimal for each order with the same best total. -/
theorem IsOptimal.withQuantity (h : s.IsOptimal sizes q)
    (hleast : IsLeast (coveringTotals sizes q') s.total) :
    IsOptimal { s with requested := q' } sizes q' :=
  ⟨rfl, h.sum_units, hleast, h.fewest_packs⟩

theorem IsCanonical.withQuantity (h : s.IsCanonical sizes q)
    (hleast : IsLeast (coveringTotals sizes q') s.total) :
    IsCanonical { s with requested := q' } sizes q' := by
  refine ⟨h.isOptimal.withQuantity hleast, ⟨h.isOrdered.count_pos, h.isOrdered.sizes_sublist⟩, ?_⟩
  intro other ho hordered
  have htotal : other.total = s.total := ho.least_total.unique hleast
  -- under the old quantity the other shipment competes with the one that is canonical for it
  have hback : IsOptimal { other with requested := q } sizes q := by
    refine ho.withQuantity ?_
    rw [htotal]
    exact h.isOptimal.least_total
  rcases h.greatest _ hback ⟨hordered.count_pos, hordered.sizes_sublist⟩ with heq | hlt
  · left
    obtain ⟨requested, total, packs⟩ := other
    obtain rfl : requested = q' := ho.requested_eq
    rw [← heq]
  · exact .inr hlt

theorem IsCanonical.unique (h : s.IsCanonical sizes q) (h' : s'.IsCanonical sizes q) : s = s' := by
  rcases h'.greatest s h.isOptimal h.isOrdered with heq | hlt
  · exact heq
  · rcases h.greatest s' h'.isOptimal h'.isOrdered with heq | hlt'
    · exact heq.symm
    · exact absurd (hlt.trans hlt') (lt_irrefl _)

/-- An order for no more than a shipment holds has the total and the packs of this shipment. -/
theorem IsCanonical.eq_withQuantity (h : s.IsCanonical sizes q) (h' : s'.IsCanonical sizes q')
    (hle : q ≤ q') (hq : q' ≤ s.total) : s' = { s with requested := q' } :=
  h'.unique (h.withQuantity (isLeast_coveringTotals_between h.isOptimal.least_total hle hq))

end Shipment

/-! ## Answers -/

namespace Solver

variable {limits : Limits} {set : SizeSet} {q q' : Int}

/-- The search for a quantity stays within the limit. -/
def WithinLimit (limits : Limits) (quantity : Int) (set : SizeSet) : Prop :=
  quantity.toNat + set.largest - 1 ≤ limits.maxCeiling

instance : Decidable (WithinLimit limits q set) := inferInstanceAs (Decidable (_ ≤ _))

theorem exists_canonical (hl : limits.maxCeiling < vacant) (hq : 0 < q)
    (hw : WithinLimit limits q set) :
    ∃ s, solve limits q set = .ok s ∧ s.IsCanonical set.toList q := by
  obtain ⟨s, hs⟩ := solve_within_limit hl hq hw
  exact ⟨s, hs, solve_isCanonical (fun _ => Nat.lt_of_le_of_lt hw hl) hs⟩

/-- **Orders compared.** A larger order takes no smaller total, and the same packs as long as these
hold it. The units of two orders take no larger total than both orders one by one. With more sizes an
order takes no larger total, and for the same total no more packs. -/
theorem solve_compared (hl : limits.maxCeiling ≤ 2 ^ 32 - 2) (hq : 0 < q) (hq' : 0 < q')
    (hw : WithinLimit limits q set) (hw' : WithinLimit limits q' set) :
    ∃ s s', solve limits q set = .ok s ∧ solve limits q' set = .ok s' ∧
      (q ≤ q' → s.total ≤ s'.total) ∧
      (q ≤ q' → q' ≤ s.total → s' = { s with requested := q' }) ∧
      (WithinLimit limits (q + q') set →
        ∃ both, solve limits (q + q') set = .ok both ∧ both.total ≤ s.total + s'.total) ∧
      ∀ larger : SizeSet, (∀ size ∈ set.toList, size ∈ larger.toList) → WithinLimit limits q larger →
        ∃ other, solve limits q larger = .ok other ∧ other.total ≤ s.total ∧
          (other.total = s.total → other.packCount ≤ s.packCount) := by
  have hvacant : limits.maxCeiling < vacant := Nat.lt_of_le_of_lt hl (by decide)
  obtain ⟨s, hs, hc⟩ := exists_canonical hvacant hq hw
  obtain ⟨s', hs', hc'⟩ := exists_canonical hvacant hq' hw'
  refine ⟨s, s', hs, hs', ?_, hc.eq_withQuantity hc', ?_, ?_⟩
  · intro hle
    exact hc.isOptimal.total_le hc'.isOptimal (coveringTotals_anti hle)
  · intro hboth
    obtain ⟨both, hsolve, hb⟩ := exists_canonical hvacant (by omega) hboth
    exact ⟨both, hsolve, hc.isOptimal.total_le_add hc'.isOptimal hb.isOptimal⟩
  · intro larger hsub hlarger
    obtain ⟨other, hsolve, ho⟩ := exists_canonical hvacant hq hlarger
    exact ⟨other, hsolve, ho.isOptimal.total_le hc.isOptimal (coveringTotals_mono hsub),
      ho.isOptimal.packCount_le hc.isOptimal hsub⟩

/-- Seven and eight units take the same packs of five and three; with packs of eight seven units take
as many units, in one pack. -/
theorem solve_compared_plateau :
    ∃ set larger : SizeSet, set.toList = [5, 3] ∧ larger.toList = [8, 5, 3] ∧
      ({} : Limits).maxCeiling ≤ 2 ^ 32 - 2 ∧ (0 : Int) < 7 ∧ (0 : Int) < 8 ∧
      WithinLimit {} 7 set ∧ WithinLimit {} 8 set ∧ WithinLimit {} (7 + 8) set ∧
      WithinLimit {} 7 larger ∧
      solve {} 7 set = .ok ⟨7, 8, [⟨5, 1⟩, ⟨3, 1⟩]⟩ ∧
      solve {} 8 set = .ok ⟨8, 8, [⟨5, 1⟩, ⟨3, 1⟩]⟩ ∧
      (∃ both, solve {} (7 + 8) set = .ok both ∧ both.total ≤ 8 + 8) ∧
      solve {} 7 larger = .ok ⟨7, 8, [⟨8, 1⟩]⟩ ∧
      Shipment.packCount ⟨7, 8, [⟨8, 1⟩]⟩ ≤ Shipment.packCount ⟨7, 8, [⟨5, 1⟩, ⟨3, 1⟩]⟩ := by
  refine ⟨⟨[5, 3], by decide, by decide, by decide⟩, ⟨[8, 5, 3], by decide, by decide, by decide⟩,
    rfl, rfl, by decide, by decide, by decide, by decide, by decide, by decide, by decide, ?_⟩
  have hseven : solve {} 7 ⟨[5, 3], by decide, by decide, by decide⟩ =
      .ok ⟨7, 8, [⟨5, 1⟩, ⟨3, 1⟩]⟩ := by cbv
  have hmore : solve {} 7 ⟨[8, 5, 3], by decide, by decide, by decide⟩ =
      .ok ⟨7, 8, [⟨8, 1⟩]⟩ := by cbv
  obtain ⟨s, s', hs, hs', -, hsame, hboth, hother⟩ :=
    @solve_compared {} ⟨[5, 3], by decide, by decide, by decide⟩ 7 8 (by decide) (by decide)
      (by decide) (by decide) (by decide)
  cases hs.symm.trans hseven
  obtain rfl := hsame (by decide) (by decide)
  obtain ⟨other, hone, -, hcount⟩ :=
    hother ⟨[8, 5, 3], by decide, by decide, by decide⟩ (by decide) (by decide)
  cases hone.symm.trans hmore
  exact ⟨hseven, hs', hboth (by decide), hmore, hcount rfl⟩

end Solver
end PackPlan
