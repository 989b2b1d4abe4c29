import PackPlan.Proofs.Solver.Counts

/-!
# PackPlan.Proofs.Solver.Cells

What the cells of a built table hold, said without the way in which they were filled. `Table.IsExact`
fixes each of them: a count is the fewest packs for its total, empty packs left aside, and a choice is
the first position whose size leaves a rest that takes one pack less. A total that needs more packs
than a cell can hold is marked like one that cannot be made.

* `Sound.isExact`: the invariant of growth says as much.
* `Sound.cells_eq`: none of this knows of the ceiling, so tables up to different ceilings agree.
* `build_exact`: both of built tables.
-/

namespace PackPlan

/-- The sizes that hold anything. -/
def positiveSizes (sizes : List Nat) : List Nat := sizes.filter fun size => 0 < size

section Positive

variable {sizes : List Nat} {total n : Nat}

/-- Packs without the empty ones hold the same total. -/
theorem MakesUp.filter_pos {packs : Multiset Nat} (h : MakesUp sizes packs total) :
    MakesUp (positiveSizes sizes) (packs.filter fun size => 0 < size) total := by
  constructor
  · intro size hs
    obtain ⟨hmem, hpos⟩ := Multiset.mem_filter.1 hs
    exact List.mem_filter.2 ⟨h.1 size hmem, decide_eq_true hpos⟩
  · have hempty : (packs.filter fun size => ¬ 0 < size).sum = 0 := by
      refine Multiset.sum_eq_zero fun size hs => ?_
      exact Nat.eq_zero_of_not_pos (Multiset.mem_filter.1 hs).2
    have hsplit := congrArg Multiset.sum (Multiset.filter_add_not (fun size => 0 < size) packs)
    rw [Multiset.sum_add, hempty, Nat.add_zero, h.2] at hsplit
    exact hsplit

theorem madeWithin_positiveSizes :
    MadeWithin (positiveSizes sizes) total n ↔ MadeWithin sizes total n := by
  constructor
  · rintro ⟨packs, hp, hc⟩
    exact ⟨packs, hp.mono fun size hs => (List.mem_filter.1 hs).1, hc⟩
  · rintro ⟨packs, hp, hc⟩
    exact ⟨_, hp.filter_pos, Nat.le_trans (Multiset.card_le_card (Multiset.filter_le _ packs)) hc⟩

theorem isLeast_packNumbers_positiveSizes :
    IsLeast (packNumbers (positiveSizes sizes) total) n ↔ IsLeast (packNumbers sizes total) n := by
  simp only [isLeast_packNumbers, madeWithin_positiveSizes]

end Positive

namespace Table

/-- The positions whose size, taken off a total of `n` packs, leaves a rest of one pack less. -/
def lastPositions (t : Table) (sizes : List Nat) (total n : Nat) : Set Nat :=
  {i | ∃ size m, sizes[i]? = some size ∧ 0 < size ∧ size ≤ total ∧
    t.minPacks? (total - size) = some m ∧ n = m + 1}

/-- What a table up to a ceiling tells of each total, and what a search in it finds. -/
structure IsExact (t : Table) (sizes : List Nat) (ceiling : Nat) : Prop where
  minPacks?_iff : ∀ total ≤ ceiling, ∀ n, t.minPacks? total = some n ↔
    IsLeast (packNumbers (positiveSizes sizes) total) n ∧ n ≤ 2 ^ 32 - 2
  choice?_eq : ∀ total ≤ ceiling, 0 < total → ∀ n, t.minPacks? total = some n →
    ∃ i, t.choice? total = some i ∧ IsLeast (t.lastPositions sizes total n) i
  choice?_zero : t.choice? 0 = none
  choice?_none : ∀ total ≤ ceiling, t.minPacks? total = none → t.choice? total = none
  firstFrom?_iff : ∀ start total, t.firstFrom? start = some total ↔
    IsLeast {k | start ≤ k ∧ k ≤ ceiling ∧ (t.minPacks? k).isSome} total

section Cells

variable {sizes : List Nat} {t t' : Table} {total ceiling n i size m : Nat}

theorem HoldsFewest.unique {count count' : Nat} (h : HoldsFewest sizes total count)
    (h' : HoldsFewest sizes total count') : count = count' := by
  by_cases hv' : count' < vacant
  · exact h.eq_of_isLeast hv' (h'.isLeast hv')
  by_cases hv : count < vacant
  · exact (h'.eq_of_isLeast hv (h.isLeast hv)).symm
  · have hle := h.1
    have hle' := h'.1
    omega

/-- A cell is what it tells. -/
theorem getD_eq_of_cell?_eq {cells cells' : Array Nat} (h : cell? cells total = cell? cells' total) :
    cells.getD total vacant = cells'.getD total vacant := by
  cases hc : cell? cells' total with
  | none => rw [cell?_eq_none.1 (h.trans hc), cell?_eq_none.1 hc]
  | some n => rw [(cell?_eq_some.1 (h.trans hc)).1, (cell?_eq_some.1 hc).1]

theorem offer_eq (hpos : 0 < size) (hle : size ≤ total) (hrest : t.minPacks? (total - size) = some m) :
    offer t.counts total size = m + 1 := by
  rw [offer, if_pos ⟨hpos, hle⟩, (cell?_eq_some.1 hrest).1]

/-- The recorded position is the first of the last packs. -/
theorem choice?_isLeast (h : Sound sizes t) (hlen : sizes.length ≤ vacant) (hpos : 0 < total)
    (hmin : t.minPacks? total = some n) :
    ∃ i, t.choice? total = some i ∧ IsLeast (t.lastPositions sizes total n) i := by
  obtain ⟨i, size, m, hstep, hfirst, hoffer, hsize, hle, hn, hrest⟩ := step_ok h hlen hpos hmin
  refine ⟨i, (step_eq_ok.1 hstep).1, ⟨size, m, hfirst.at_position, hsize, hle, hrest, hn⟩, ?_⟩
  rintro j ⟨other, k, hj, hother, hlej, hk, hnk⟩
  by_contra hji
  -- a position before the recorded one makes a larger offer, so it leaves a rest of more packs
  have hworse := hfirst.lt_offer j (by omega) other hj
  rw [hoffer, offer_eq hother hlej hk] at hworse
  omega

theorem Sound.isExact (h : Sound sizes t) (hsize : t.counts.size = ceiling + 1)
    (hlen : sizes.length ≤ vacant) : t.IsExact sizes ceiling where
  minPacks?_iff total ht n := by
    rw [minPacks?_eq_some h (by omega), isLeast_packNumbers_positiveSizes]
    exact and_congr_right fun _ => Nat.lt_iff_le_pred (by decide)
  choice?_eq total _ hpos n hmin := choice?_isLeast h hlen hpos hmin
  choice?_zero := cell?_eq_none.2 h.no_choice
  choice?_none total _ hmin := choice?_eq_none h hmin
  firstFrom?_iff start total := by
    rw [firstFrom?_eq_some]
    have hset : {k | start ≤ k ∧ t.isReachable k = true} =
        {k | start ≤ k ∧ k ≤ ceiling ∧ (t.minPacks? k).isSome} := by
      ext k
      constructor
      · rintro ⟨hle, hr⟩
        have hlt := lt_size_of_isReachable hr
        exact ⟨hle, by omega, hr⟩
      · rintro ⟨hle, -, hr⟩
        exact ⟨hle, hr⟩
    rw [hset]

theorem minPacks?_eq (h : Sound sizes t) (h' : Sound sizes t') (ht : total < t.counts.size)
    (ht' : total < t'.counts.size) : t.minPacks? total = t'.minPacks? total := by
  simp only [minPacks?, cell?, (h.fewest total ht).unique (h'.fewest total ht')]

theorem lastPositions_eq (h : Sound sizes t) (h' : Sound sizes t') (ht : total < t.counts.size)
    (ht' : total < t'.counts.size) :
    t.lastPositions sizes total n = t'.lastPositions sizes total n := by
  ext i
  have hrest : ∀ size, t.minPacks? (total - size) = t'.minPacks? (total - size) := fun size =>
    minPacks?_eq h h' (by omega) (by omega)
  simp only [lastPositions, Set.mem_ofPred_eq, hrest]

theorem choice?_eq (h : Sound sizes t) (h' : Sound sizes t') (hlen : sizes.length ≤ vacant)
    (ht : total < t.counts.size) (ht' : total < t'.counts.size) :
    t.choice? total = t'.choice? total := by
  have hmin := minPacks?_eq h h' ht ht'
  by_cases hpos : 0 < total
  · cases hn : t'.minPacks? total with
    | none => rw [choice?_eq_none h (hmin.trans hn), choice?_eq_none h' hn]
    | some n =>
      obtain ⟨i, hi, hleast⟩ := choice?_isLeast h hlen hpos (hmin.trans hn)
      obtain ⟨j, hj, hleast'⟩ := choice?_isLeast h' hlen hpos hn
      rw [lastPositions_eq h h' ht ht'] at hleast
      rw [hi, hj, hleast.unique hleast']
  · have hz : total = 0 := by omega
    subst hz
    rw [choice?, choice?, cell?_eq_none.2 h.no_choice, cell?_eq_none.2 h'.no_choice]

/-- Tables for the same sizes agree on the totals that both have. -/
theorem Sound.cells_eq (h : Sound sizes t) (h' : Sound sizes t') (hlen : sizes.length ≤ vacant)
    (ht : total < t.counts.size) (ht' : total < t'.counts.size) :
    t.counts[total]? = t'.counts[total]? ∧ t.choices[total]? = t'.choices[total]? := by
  -- both tables have the cell, so it is the same if it tells the same
  have hcount := getD_eq_of_cell?_eq (minPacks?_eq h h' ht ht')
  have hchoice := getD_eq_of_cell?_eq (choice?_eq h h' hlen ht ht')
  have hc := h.size_choices
  have hc' := h'.size_choices
  simp only [Array.getD_eq_getD_getElem?] at hcount hchoice
  rw [Array.getElem?_eq_getElem ht, Array.getElem?_eq_getElem ht'] at hcount ⊢
  rw [Array.getElem?_eq_getElem (hc ▸ ht), Array.getElem?_eq_getElem (hc' ▸ ht')] at hchoice ⊢
  exact ⟨congrArg some hcount, congrArg some hchoice⟩

/-- **A table is exact for any list of sizes**: out of order, with repetitions, with empty sizes. There
is one up to every ceiling that can be counted to, it tells the fewest packs for each total and the
first position to take off, and its cells are those of any other table for the same sizes. -/
theorem build_exact (hlen : sizes.length < 2 ^ 32) (hc : ceiling < 2 ^ 64 - 1) :
    ∃ t, build sizes ceiling = .ok t ∧ t.counts.size = ceiling + 1 ∧ t.IsExact sizes ceiling ∧
      ∀ ceiling' t', build sizes ceiling' = .ok t' → ∀ total ≤ ceiling, total ≤ ceiling' →
        t.counts[total]? = t'.counts[total]? ∧ t.choices[total]? = t'.choices[total]? := by
  have hfit : sizes.length ≤ vacant := Nat.le_of_lt_succ hlen
  obtain ⟨t, hb⟩ := build_ok hfit hc
  obtain ⟨hsound, hsize⟩ := build_sound hb
  refine ⟨t, hb, hsize, hsound.isExact hsize hfit, ?_⟩
  intro ceiling' t' hb' total hle hle'
  obtain ⟨hsound', hsize'⟩ := build_sound hb'
  exact hsound.cells_eq hsound' hfit (by omega) (by omega)

/-- Sizes out of order, one of them twice and one empty; seven cannot be made. -/
theorem build_exact_repeated :
    [3, 0, 5, 3].length < 2 ^ 32 ∧ 9 < 2 ^ 64 - 1 ∧
      ∃ t, build [3, 0, 5, 3] 9 = .ok t ∧ t.minPacks? 8 = some 2 ∧ t.choice? 8 = some 0 ∧
        t.minPacks? 7 = none ∧ t.choice? 7 = none ∧ t.firstFrom? 7 = some 8 ∧
        IsLeast (packNumbers [3, 5, 3] 8) 2 ∧ IsLeast (t.lastPositions [3, 0, 5, 3] 8 2) 0 ∧
        ∀ t', build [3, 0, 5, 3] 20 = .ok t' → t'.choices[8]? = t.choices[8]? := by
  obtain ⟨t, hb, -, hexact, hcells⟩ := @build_exact [3, 0, 5, 3] 9 (by decide) (by decide)
  have hrun : (build [3, 0, 5, 3] 9).map (fun t => (t.minPacks? 8, t.choice? 8, t.minPacks? 7,
      t.firstFrom? 7)) = .ok (some 2, some 0, none, some 8) := by cbv
  rw [hb] at hrun
  simp only [Except.map, Except.ok.injEq, Prod.mk.injEq] at hrun
  obtain ⟨hmin, hchoice, hnone, hfirst⟩ := hrun
  obtain ⟨i, hi, hleast⟩ := hexact.choice?_eq 8 (by decide) (by decide) 2 hmin
  obtain rfl : i = 0 := Option.some.inj (hi.symm.trans hchoice)
  refine ⟨by decide, by decide, t, hb, hmin, hchoice, hnone,
    hexact.choice?_none 7 (by decide) hnone, hfirst,
    ((hexact.minPacks?_iff 8 (by decide) 2).1 hmin).1, hleast, ?_⟩
  intro t' hb'
  exact (hcells 20 t' hb' 8 (by decide) (by decide)).2.symm

end Cells
end Table
end PackPlan
