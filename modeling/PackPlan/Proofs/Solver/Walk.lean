import PackPlan.Proofs.Solver.Table
import PackPlan.Solver.Walk

/-!
# PackPlan.Proofs.Solver.Walk

The way back through a table. Whatever the table holds, counts that a walk ends with weigh as much as
the total it set out from (`reconstruct_finished`): a walk cannot end with wrong packs. On a table
that is `Sound`, each step from a total that can be made takes a size off and leaves a total that
takes one pack less (`step_ok`), so that a walk ends.
-/

namespace PackPlan

/-- The units in so many packs of each size. -/
def weigh (sizes counts : List Nat) : Nat := (List.zipWith (· * ·) sizes counts).sum

section Weigh

variable {sizes counts : List Nat} {i size : Nat}

theorem weigh_cons (size count : Nat) (sizes counts : List Nat) :
    weigh (size :: sizes) (count :: counts) = size * count + weigh sizes counts := by
  simp [weigh]

theorem weigh_replicate_zero (sizes : List Nat) (n : Nat) : weigh sizes (List.replicate n 0) = 0 := by
  induction sizes generalizing n with
  | nil => simp [weigh]
  | cons size rest ih =>
    cases n with
    | zero => simp [weigh]
    | succ n => rw [List.replicate_succ, weigh_cons, ih n]; omega

/-- One pack more adds its size. -/
theorem weigh_modify (hs : sizes[i]? = some size) (hi : i < counts.length) :
    weigh sizes (counts.modify i (· + 1)) = weigh sizes counts + size := by
  induction sizes generalizing i counts with
  | nil => simp at hs
  | cons first rest ih =>
    cases counts with
    | nil => simp at hi
    | cons count counts =>
      cases i with
      | zero =>
        simp only [List.getElem?_cons_zero, Option.some.injEq] at hs
        subst hs
        rw [List.modify_zero_cons, weigh_cons, weigh_cons, Nat.mul_succ]
        omega
      | succ i =>
        rw [List.getElem?_cons_succ] at hs
        rw [List.modify_succ_cons, weigh_cons, weigh_cons, ih hs (by simpa using hi)]
        omega

/-- One pack more, whatever its size. -/
theorem sum_modify (hi : i < counts.length) : (counts.modify i (· + 1)).sum = counts.sum + 1 := by
  induction counts generalizing i with
  | nil => simp at hi
  | cons count counts ih =>
    cases i with
    | zero => rw [List.modify_zero_cons, List.sum_cons, List.sum_cons]; omega
    | succ i =>
      rw [List.modify_succ_cons, List.sum_cons, List.sum_cons, ih (by simpa using hi)]
      omega

end Weigh

namespace Table

variable {sizes counts counts' : List Nat} {t : Table} {total left n i : Nat} {f : Fault}

theorem step_eq_ok :
    t.step sizes total = .ok (i, left) ↔
      t.choice? total = some i ∧ ∃ size, sizes[i]? = some size ∧ size ≤ total ∧
        left = total - size := by
  simp only [step]
  constructor
  · intro h
    split at h
    · cases h
    · rename_i j hj
      split at h
      · cases h
      · rename_i size hs
        split at h
        · rename_i hle; cases h
          exact ⟨hj, size, hs, hle, rfl⟩
        · cases h
  · rintro ⟨hj, size, hs, hle, rfl⟩
    simp [hj, hs, hle]

theorem walk_zero : t.walk sizes counts 0 = .finished counts := by rw [walk, if_pos rfl]

theorem walk_of_error (hpos : 0 < total) (hstep : t.step sizes total = .error f) :
    t.walk sizes counts total = .broken f := by
  rw [walk, if_neg (Nat.ne_of_gt hpos), hstep]

theorem walk_of_lt (hstep : t.step sizes total = .ok (i, left)) (hlt : left < total) :
    t.walk sizes counts total = t.walk sizes (counts.modify i (· + 1)) left := by
  rw [walk, if_neg (by omega), hstep]
  simp only [if_pos hlt]

/-- A walk that ends has counted packs that weigh what it took off, in any table. -/
theorem walk_finished (hlen : counts.length = sizes.length)
    (h : t.walk sizes counts total = .finished counts') :
    counts'.length = sizes.length ∧ weigh sizes counts' = weigh sizes counts + total := by
  fun_induction walk t sizes counts total with
  | case1 counts => cases h; exact ⟨hlen, rfl⟩
  | case2 => cases h
  | case3 counts total hne i left hstep hlt ih =>
    obtain ⟨-, size, hs, hle, rfl⟩ := step_eq_ok.1 hstep
    have hi : i < counts.length := by
      rw [hlen]; exact (List.getElem?_eq_some_iff.1 hs).1
    obtain ⟨hlen', hweigh⟩ := ih (by rw [List.length_modify, hlen]) h
    rw [weigh_modify hs hi] at hweigh
    exact ⟨hlen', by omega⟩
  | case4 => cases h

/-- What a finished reconstruction says, in any table. -/
theorem reconstruct_finished (h : t.reconstruct sizes total = .finished counts) :
    counts.length = sizes.length ∧ weigh sizes counts = total ∧
      t.minPacks? total = some counts.sum := by
  simp only [reconstruct] at h
  split at h
  · rename_i found hw
    obtain ⟨hlen, hweigh⟩ := walk_finished List.length_replicate hw
    rw [weigh_replicate_zero, Nat.zero_add] at hweigh
    split at h
    · rename_i hmin; cases h
      exact ⟨hlen, hweigh, hmin⟩
    · cases h
  · cases h
  · cases h

theorem lt_size_of_minPacks? (h : t.minPacks? total = some n) : total < t.counts.size :=
  lt_size_of_isReachable (by rw [isReachable, h]; rfl)

/-- From a total that can be made, the walk takes off the size recorded for it, which makes the
first best offer, and comes to a total that takes one pack less. -/
theorem step_ok (h : Sound sizes t) (hlen : sizes.length ≤ vacant) (hpos : 0 < total)
    (hmin : t.minPacks? total = some n) :
    ∃ i size m, t.step sizes total = .ok (i, total - size) ∧
      IsFirstBest t.counts total sizes i size ∧ offer t.counts total size = n ∧
      0 < size ∧ size ≤ total ∧ n = m + 1 ∧ t.minPacks? (total - size) = some m := by
  obtain ⟨hcount, hne⟩ := cell?_eq_some.1 hmin
  rcases h.first total hpos (lt_size_of_minPacks? hmin) with ⟨hv, -⟩ | ⟨hlt, size, hfirst, hoffer⟩
  · omega
  · have hi := (List.getElem?_eq_some_iff.1 hfirst.at_position).1
    have hn : offer t.counts total size = n := by rw [hoffer, hcount]
    unfold offer at hoffer
    split at hoffer
    · rename_i hs
      refine ⟨_, size, t.counts.getD (total - size) vacant, step_eq_ok.2 ⟨?_, size,
        hfirst.at_position, hs.2, rfl⟩, hfirst, hn, hs.1, hs.2, by omega, ?_⟩
      · exact cell?_eq_some.2 ⟨rfl, by omega⟩
      · exact cell?_eq_some.2 ⟨rfl, by omega⟩
    · omega

/-- A total without a count has no choice either. -/
theorem choice?_eq_none (h : Sound sizes t) (hmin : t.minPacks? total = none) :
    t.choice? total = none := by
  rw [minPacks?, cell?_eq_none] at hmin
  rw [choice?, cell?_eq_none]
  by_cases hz : total = 0
  · rw [hz]; exact h.no_choice
  by_cases ht : total < t.counts.size
  · rcases h.first total (Nat.pos_of_ne_zero hz) ht with ⟨-, hc⟩ | ⟨hlt, -⟩
    · exact hc
    · omega
  · have hbeyond : t.choices.size ≤ total := by rw [h.size_choices]; omega
    simp [Array.getD_eq_getD_getElem?, Array.getElem?_eq_none hbeyond]

theorem minPacks?_zero (h : Sound sizes t) : t.minPacks? 0 = some 0 := by
  rw [minPacks?_eq_some h h.size_pos, isLeast_packNumbers]
  exact ⟨fun m => ⟨fun _ => madeWithin_nothing sizes m, fun _ => Nat.zero_le m⟩, by decide⟩

end Table
end PackPlan
