import PackPlan.Proofs.Solver.Counts

/-!
# PackPlan.Proofs.Solver.TieBreak

Of all ways to make up a total with the fewest packs, a table leads to the one that comes last in the
order of lists: as many packs as possible of the size listed first, then of the next, and so on.

A table records one position for each total, without looking ahead. That this is enough is an
argument of exchange (`isGreatest_modify`): no way with the fewest packs uses a size listed before
the recorded one (`eq_zero_before_first`), and what is left without the recorded size is again made
up with the fewest packs. `reconstruct_ok` and `reconstruct_noRecord` say which totals have a way
back, and where it leads.
-/

namespace PackPlan
namespace Table

section Exchange

variable {sizes counts : List Nat} {t : Table} {total size n m i : Nat}

theorem isLeast_of_minPacks? (h : Sound sizes t) (hmin : t.minPacks? total = some n) :
    IsLeast (packNumbers sizes total) n ∧ n < vacant :=
  (minPacks?_eq_some h (lt_size_of_minPacks? hmin)).1 hmin

/-- A size listed before the recorded one would leave a rest that takes too many packs. -/
theorem eq_zero_before_first (h : Sound sizes t) (hmin : t.minPacks? total = some (m + 1))
    (hfirst : IsFirstBest t.counts total sizes i size) (hoffer : offer t.counts total size = m + 1)
    (hc : counts ∈ fewestCounts sizes total) {j : Nat} (hj : j < counts.length) (hji : j < i) :
    counts[j] = 0 := by
  obtain ⟨hlen, hw, hl⟩ := hc
  obtain ⟨hleast, hlt⟩ := isLeast_of_minPacks? h hmin
  have hother : sizes[j]? = some sizes[j] := List.getElem?_eq_getElem (by omega)
  have hworse := hfirst.lt_offer j hji _ hother
  by_contra hne
  obtain ⟨left, hleft, rfl⟩ := exists_modify_of_pos hj (Nat.pos_of_ne_zero hne)
  have hjl : j < left.length := by omega
  have hsum := sum_modify hjl
  have hweigh := weigh_modify hother hjl
  have hm : left.sum = m := by
    have := hl.unique hleast
    omega
  -- the rest without a pack of this size takes one pack less
  have hrest : left.sum ∈ packNumbers sizes (weigh sizes left) :=
    mem_packNumbers_weigh (by omega)
  rw [hm] at hrest
  by_cases hpos : 0 < sizes[j]
  · have hmade : MadeWithin sizes (total - sizes[j]) m := by
      obtain ⟨packs, hp, hcard⟩ := hrest
      have hsame : weigh sizes left = total - sizes[j] := by omega
      exact ⟨packs, by rwa [← hsame], Nat.le_of_eq hcard⟩
    have hle := (offer_le_iff h (Nat.le_of_lt (lt_size_of_minPacks? hmin)) hlt sizes[j]).2
      ⟨hpos, by omega, hmade⟩
    omega
  · -- an empty pack can be left out
    have hsame : weigh sizes left = total := by omega
    rw [hsame] at hrest
    have := hleast.2 hrest
    omega

/-- One more pack of the recorded size makes the last way for the rest the last way for the total. -/
theorem isGreatest_modify (h : Sound sizes t) (hmin : t.minPacks? total = some (m + 1))
    (hfirst : IsFirstBest t.counts total sizes i size) (hoffer : offer t.counts total size = m + 1)
    (hle : size ≤ total) (hleft : t.minPacks? (total - size) = some m)
    (hg : IsGreatest (fewestCounts sizes (total - size)) counts) :
    IsGreatest (fewestCounts sizes total) (counts.modify i (· + 1)) := by
  have hlen := hg.1.1
  have hi : i < counts.length := by
    rw [hlen]; exact (List.getElem?_eq_some_iff.1 hfirst.at_position).1
  have hstep : ∀ {others : List Nat}, others.length = sizes.length →
      (others.modify i (· + 1) ∈ fewestCounts sizes total ↔
        others ∈ fewestCounts sizes (total - size)) := fun hlo =>
    mem_fewestCounts_modify hfirst.at_position hle hlo (isLeast_of_minPacks? h hmin).1
      (isLeast_of_minPacks? h hleft).1
  have hmem := (hstep hlen).2 hg.1
  refine ⟨hmem, fun others ho => ?_⟩
  have hio : i < others.length := by rw [ho.1]; omega
  by_cases hpos : 0 < others[i]
  · -- both have a pack of the recorded size, and without it they are ways for the rest
    obtain ⟨rest, hrest, rfl⟩ := exists_modify_of_pos hio hpos
    rw [modify_le_modify]
    exact hg.2 ((hstep (by rw [hrest, ho.1])).1 ho)
  · refine le_of_lt (lt_of_zeros hio (by rwa [List.length_modify]) ?_ ?_ ?_)
    · intro j hj
      exact eq_zero_before_first h hmin hfirst hoffer ho (by omega) hj
    · intro j hj
      exact eq_zero_before_first h hmin hfirst hoffer hmem (by rw [List.length_modify]; omega) hj
    · rw [List.getElem_modify_eq]
      omega

/-- By induction on the total: the walk adds the last way for it to what it has counted so far. -/
theorem walk_greatest (h : Sound sizes t) (hlen : sizes.length ≤ vacant) :
    ∀ (total n : Nat) (counts : List Nat), counts.length = sizes.length →
      t.minPacks? total = some n →
      ∃ last, IsGreatest (fewestCounts sizes total) last ∧
        t.walk sizes counts total = .finished (List.zipWith (· + ·) counts last) := by
  intro total
  induction total using Nat.strongRecOn with
  | ind total ih =>
    intro n counts hc hmin
    by_cases hz : total = 0
    · subst hz
      refine ⟨List.replicate sizes.length 0, ⟨replicate_mem_fewestCounts sizes, ?_⟩, ?_⟩
      · intro others ho
        exact le_of_eq (fewestCounts_zero ho)
      · rw [walk_zero, ← hc, zipWith_add_replicate]
    · obtain ⟨i, size, m, hstep, hfirst, hoffer, hpos, hle, rfl, hleft⟩ :=
        step_ok h hlen (by omega) hmin
      have hlt : total - size < total := by omega
      obtain ⟨last, hg, hw⟩ :=
        ih (total - size) hlt m (counts.modify i (· + 1)) (by rwa [List.length_modify]) hleft
      refine ⟨last.modify i (· + 1), isGreatest_modify h hmin hfirst hoffer hle hleft hg, ?_⟩
      rw [walk_of_lt hstep hlt, hw, zipWith_add_modify]

end Exchange

/-! ## The way back -/

section Reconstruct

variable {sizes counts : List Nat} {t : Table} {total n : Nat}

/-- In a sound table every total that can be made has its packs. -/
theorem reconstruct_ok (h : Sound sizes t) (hlen : sizes.length ≤ vacant)
    (hmin : t.minPacks? total = some n) :
    ∃ counts, t.reconstruct sizes total = .finished counts ∧
      IsGreatest (fewestCounts sizes total) counts := by
  have hzeros : (List.replicate sizes.length 0).length = sizes.length := List.length_replicate
  obtain ⟨last, hg, hw⟩ := walk_greatest h hlen total n (List.replicate sizes.length 0) hzeros hmin
  have hlast : List.zipWith (· + ·) (List.replicate sizes.length 0) last = last :=
    zipWith_replicate_add hg.1.1
  have hcount : t.minPacks? total = some last.sum := by
    rw [hmin, hg.1.2.2.unique (isLeast_of_minPacks? h hmin).1]
  refine ⟨last, ?_, hg⟩
  rw [reconstruct, hw, hlast]
  exact if_pos hcount

theorem reconstruct_greatest (h : Sound sizes t) (hlen : sizes.length ≤ vacant)
    (hr : t.reconstruct sizes total = .finished counts) :
    IsGreatest (fewestCounts sizes total) counts := by
  obtain ⟨last, hlast, hg⟩ := reconstruct_ok h hlen (reconstruct_finished hr).2.2
  rw [hr] at hlast
  cases hlast; exact hg

/-- A total without a count has no choice either, so the walk stops where it starts. -/
theorem reconstruct_noRecord (h : Sound sizes t) (hmin : t.minPacks? total = none) :
    t.reconstruct sizes total = .broken .noRecord := by
  have hpos : total ≠ 0 := by
    rintro rfl
    rw [minPacks?_zero h] at hmin
    cases hmin
  have hstep : t.step sizes total = .error .noRecord := by
    simp only [step, choice?_eq_none h hmin]
  rw [reconstruct, walk_of_error (Nat.pos_of_ne_zero hpos) hstep]

end Reconstruct
end Table
end PackPlan
