import PackPlan.Proofs.Solver.Walk

/-!
# PackPlan.Proofs.Solver.Counts

Packs written as a number for each position of a list of sizes. The same packs may have several such
lists when sizes repeat, and equally many packs of other sizes may hold the same total; the order of
lists, first difference first, tells all of them apart.

* `mem_packNumbers_weigh`: counts stand for packs of the listed sizes.
* `mem_fewestCounts_modify`: among the fewest packs for a total, those with a pack at some position
  are the fewest packs for what is left without it, with one more there.
* `lt_of_zeros`, `modify_le_modify`: what the order of lists makes of one more pack.
-/

namespace PackPlan

/-- The ways to make up a total with the fewest packs, as a number for each position. -/
def fewestCounts (sizes : List Nat) (total : Nat) : Set (List Nat) :=
  {counts | counts.length = sizes.length ∧ weigh sizes counts = total ∧
    IsLeast (packNumbers sizes total) counts.sum}

section Packs

variable {sizes counts : List Nat} {total size n i : Nat}

theorem MakesUp.mono {sizes' : List Nat} {packs : Multiset Nat} (h : MakesUp sizes packs total)
    (hs : ∀ size ∈ sizes, size ∈ sizes') : MakesUp sizes' packs total :=
  ⟨fun x hx => hs x (h.1 x hx), h.2⟩

/-- Counts stand for packs: so many of each size. -/
theorem mem_packNumbers_weigh (hlen : counts.length = sizes.length) :
    counts.sum ∈ packNumbers sizes (weigh sizes counts) := by
  induction sizes generalizing counts with
  | nil =>
    rw [List.length_nil, List.length_eq_zero_iff] at hlen
    subst hlen
    exact ⟨0, .zero, rfl⟩
  | cons first rest ih =>
    cases counts with
    | nil => cases hlen
    | cons count counts =>
      obtain ⟨packs, hp, hc⟩ := ih (by simpa using hlen)
      have hwider : MakesUp (first :: rest) packs (weigh rest counts) :=
        hp.mono fun size hs => List.mem_cons_of_mem _ hs
      refine ⟨packs + Multiset.replicate count first, ?_, ?_⟩
      · have hmore := hwider.add (MakesUp.replicate (List.mem_cons_self ..) count)
        rwa [weigh_cons, Nat.add_comm, Nat.mul_comm]
      · rw [Multiset.card_add, Multiset.card_replicate, hc, List.sum_cons, Nat.add_comm]

/-- A pack that is counted can be taken off its count. -/
theorem exists_modify_of_pos (hi : i < counts.length) (hpos : 0 < counts[i]) :
    ∃ left : List Nat, left.length = counts.length ∧ left.modify i (· + 1) = counts := by
  refine ⟨counts.modify i (· - 1), List.length_modify .., ?_⟩
  refine List.ext_getElem (by simp) fun j hj _ => ?_
  rw [List.getElem_modify, List.getElem_modify]
  split
  · rename_i hij; subst hij; omega
  · rfl

/-- Among the fewest packs for a total, those with a pack of this size at this position are the
fewest packs for what is left, with one more there. -/
theorem mem_fewestCounts_modify (hs : sizes[i]? = some size) (hle : size ≤ total)
    (hlen : counts.length = sizes.length) (hmin : IsLeast (packNumbers sizes total) (n + 1))
    (hleft : IsLeast (packNumbers sizes (total - size)) n) :
    counts.modify i (· + 1) ∈ fewestCounts sizes total ↔
      counts ∈ fewestCounts sizes (total - size) := by
  have hi : i < counts.length := by
    rw [hlen]; exact (List.getElem?_eq_some_iff.1 hs).1
  have hweigh := weigh_modify hs hi
  have hsum := sum_modify hi
  constructor
  · rintro ⟨-, hw, hl⟩
    have hn : counts.sum = n := by
      have := hl.unique hmin
      omega
    exact ⟨hlen, by omega, by rwa [hn]⟩
  · rintro ⟨-, hw, hl⟩
    have hn : (counts.modify i (· + 1)).sum = n + 1 := by
      have := hl.unique hleft
      omega
    exact ⟨by rw [List.length_modify, hlen], by omega, by rwa [hn]⟩

theorem fewestCounts_zero (h : counts ∈ fewestCounts sizes 0) :
    counts = List.replicate sizes.length 0 := by
  obtain ⟨hlen, -, hl⟩ := h
  have hzero : counts.sum = 0 := Nat.le_zero.1 (hl.2 ⟨0, .zero, rfl⟩)
  rw [List.eq_replicate_iff]
  exact ⟨hlen, fun x hx => List.sum_eq_zero_iff.1 hzero x hx⟩

theorem replicate_mem_fewestCounts (sizes : List Nat) :
    List.replicate sizes.length 0 ∈ fewestCounts sizes 0 := by
  have hsum : (List.replicate sizes.length 0).sum = 0 := by simp
  refine ⟨List.length_replicate, weigh_replicate_zero sizes _, ?_⟩
  rw [hsum]
  exact ⟨⟨0, .zero, rfl⟩, fun n _ => Nat.zero_le n⟩

end Packs

/-! ## The order of lists -/

section Order

variable {u v : List Nat} {i : Nat}

theorem modify_lt_modify : u.modify i (· + 1) < v.modify i (· + 1) ↔ u < v := by
  induction i generalizing u v with
  | zero =>
    cases u with
    | nil => cases v <;> simp
    | cons a u =>
      cases v with
      | nil => simp
      | cons b v => simp [List.cons_lt_cons_iff]
  | succ i ih =>
    cases u with
    | nil => cases v <;> simp
    | cons a u =>
      cases v with
      | nil => simp
      | cons b v =>
        rw [List.modify_succ_cons, List.modify_succ_cons, List.cons_lt_cons_iff,
          List.cons_lt_cons_iff, ih]

theorem modify_le_modify : u.modify i (· + 1) ≤ v.modify i (· + 1) ↔ u ≤ v := by
  rw [← not_lt, ← not_lt, modify_lt_modify]

/-- The first difference decides, here the first position that is not empty. -/
theorem lt_of_zeros (hu : i < u.length) (hv : i < v.length) (hzu : ∀ j (hj : j < i), u[j] = 0)
    (hzv : ∀ j (hj : j < i), v[j] = 0) (hlt : u[i] < v[i]) : u < v := by
  refine List.lt_iff_exists.2 (.inr ⟨i, hu, hv, fun j hj => ?_, hlt⟩)
  rw [hzu j hj, hzv j hj]

theorem zipWith_add_modify :
    List.zipWith (· + ·) (u.modify i (· + 1)) v = List.zipWith (· + ·) u (v.modify i (· + 1)) := by
  induction i generalizing u v with
  | zero =>
    cases u with
    | nil => simp
    | cons a u =>
      cases v with
      | nil => simp
      | cons b v =>
        rw [List.modify_zero_cons, List.modify_zero_cons, List.zipWith_cons_cons,
          List.zipWith_cons_cons, Nat.succ_add_eq_add_succ]
  | succ i ih =>
    cases u with
    | nil => simp
    | cons a u =>
      cases v with
      | nil => simp
      | cons b v =>
        rw [List.modify_succ_cons, List.modify_succ_cons, List.zipWith_cons_cons,
          List.zipWith_cons_cons, ih]

theorem zipWith_add_replicate : List.zipWith (· + ·) u (List.replicate u.length 0) = u := by
  induction u with
  | nil => rfl
  | cons a u ih => rw [List.length_cons, List.replicate_succ, List.zipWith_cons_cons, ih]; rfl

theorem zipWith_replicate_add {n : Nat} (h : u.length = n) :
    List.zipWith (· + ·) (List.replicate n 0) u = u := by
  rw [List.zipWith_comm_of_comm Nat.add_comm, ← h, zipWith_add_replicate]

end Order
end PackPlan
