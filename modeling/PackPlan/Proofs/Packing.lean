import Mathlib
import PackPlan.Shipment

/-!
# PackPlan.Proofs.Packing

What packs can make up, said without any table. A choice of packs is a multiset of sizes from a list,
and `MakesUp` says which total it holds. `MadeWithin` bounds the number of packs; it is what a table
decides cell by cell, because of its recursion in the number of packs (`madeWithin_succ`).

`Shipment.IsOptimal` is the rule for the packs of an order: the smallest total that covers the
quantity, and of all packs with this total as few as possible.
-/

namespace PackPlan

/-- These packs are of the listed sizes and hold so many units. -/
def MakesUp (sizes : List Nat) (packs : Multiset Nat) (total : Nat) : Prop :=
  (∀ size ∈ packs, size ∈ sizes) ∧ packs.sum = total

/-- At most `n` packs of the listed sizes hold the total. -/
def MadeWithin (sizes : List Nat) (total n : Nat) : Prop :=
  ∃ packs, MakesUp sizes packs total ∧ packs.card ≤ n

/-- The numbers of packs with which a total can be made up. -/
def packNumbers (sizes : List Nat) (total : Nat) : Set Nat :=
  {n | ∃ packs, MakesUp sizes packs total ∧ packs.card = n}

/-- The totals from a quantity on that can be made up. -/
def coveringTotals (sizes : List Nat) (quantity : Int) : Set Nat :=
  {total | quantity ≤ total ∧ ∃ packs, MakesUp sizes packs total}

/-- The packs of a shipment add up to its total, which is the smallest that covers the quantity, and
they are the fewest for this total. -/
structure Shipment.IsOptimal (s : Shipment) (sizes : List Nat) (quantity : Int) : Prop where
  requested_eq : s.requested = quantity
  sum_units : (s.packs.map fun a => a.size * a.count).sum = s.total
  least_total : IsLeast (coveringTotals sizes quantity) s.total
  fewest_packs : IsLeast (packNumbers sizes s.total) s.packCount

/-- The packs of a shipment are of listed sizes, in the order of the list, and none are counted that
are not there. -/
structure Shipment.IsOrdered (s : Shipment) (sizes : List Nat) : Prop where
  count_pos : ∀ a ∈ s.packs, 0 < a.count
  sizes_sublist : (s.packs.map Allocation.size).Sublist sizes

theorem Shipment.packCount_eq_sum (s : Shipment) :
    s.packCount = (s.packs.map Allocation.count).sum := by
  rw [packCount, List.sum_eq_foldr, List.foldr_map]

namespace MakesUp

variable {sizes : List Nat} {packs : Multiset Nat} {total size : Nat}

theorem zero : MakesUp sizes 0 0 := ⟨by simp, rfl⟩

theorem cons (h : MakesUp sizes packs total) (hs : size ∈ sizes) :
    MakesUp sizes (size ::ₘ packs) (total + size) := by
  refine ⟨?_, by rw [Multiset.sum_cons, h.2, Nat.add_comm]⟩
  intro x hx
  rcases Multiset.mem_cons.1 hx with rfl | hx
  · exact hs
  · exact h.1 x hx

/-- Taking a pack out leaves packs for the rest. -/
theorem erase (h : MakesUp sizes packs total) (hs : size ∈ packs) :
    MakesUp sizes (packs.erase size) (total - size) := by
  refine ⟨fun x hx => h.1 x (Multiset.mem_of_mem_erase hx), ?_⟩
  have hsum := Multiset.sum_cons size (packs.erase size)
  rw [Multiset.cons_erase hs, h.2] at hsum
  omega

theorem size_le (h : MakesUp sizes packs total) (hs : size ∈ packs) : size ≤ total := by
  have hsum := Multiset.sum_cons size (packs.erase size)
  rw [Multiset.cons_erase hs, h.2] at hsum
  omega

/-- Some pack of a positive total is not empty. -/
theorem exists_pos (h : MakesUp sizes packs total) (ht : 0 < total) : ∃ size ∈ packs, 0 < size := by
  by_contra hnone
  have hzero : packs.sum = 0 := by
    refine Multiset.sum_eq_zero fun x hx => ?_
    exact Nat.eq_zero_of_not_pos fun hpos => hnone ⟨x, hx, hpos⟩
  rw [h.2] at hzero
  omega

/-- Packs for two totals, taken together. -/
theorem add {packs' : Multiset Nat} {total' : Nat} (h : MakesUp sizes packs total)
    (h' : MakesUp sizes packs' total') : MakesUp sizes (packs + packs') (total + total') := by
  refine ⟨fun x hx => ?_, by rw [Multiset.sum_add, h.2, h'.2]⟩
  rcases Multiset.mem_add.1 hx with hx | hx
  · exact h.1 x hx
  · exact h'.1 x hx

/-- So many packs of one size. -/
theorem replicate (hs : size ∈ sizes) (n : Nat) :
    MakesUp sizes (Multiset.replicate n size) (n * size) := by
  refine ⟨fun x hx => ?_, by rw [Multiset.sum_replicate, Nat.nsmul_eq_mul]⟩
  rw [Multiset.eq_of_mem_replicate hx]
  exact hs

end MakesUp

section MadeWithin

variable {sizes : List Nat} {total n m : Nat}

theorem MadeWithin.mono (h : MadeWithin sizes total n) (hnm : n ≤ m) : MadeWithin sizes total m := by
  obtain ⟨packs, hp, hc⟩ := h
  exact ⟨packs, hp, Nat.le_trans hc hnm⟩

theorem madeWithin_nothing (sizes : List Nat) (n : Nat) : MadeWithin sizes 0 n :=
  ⟨0, .zero, Nat.zero_le n⟩

theorem madeWithin_zero : MadeWithin sizes total 0 ↔ total = 0 := by
  constructor
  · rintro ⟨packs, hp, hc⟩
    rw [Nat.le_zero, Multiset.card_eq_zero] at hc
    rw [← hp.2, hc, Multiset.sum_zero]
  · rintro rfl
    exact madeWithin_nothing sizes 0

/-- A positive total is made with one pack more than what is left after some size is taken off. -/
theorem madeWithin_succ (ht : 0 < total) :
    MadeWithin sizes total (n + 1) ↔
      ∃ size ∈ sizes, 0 < size ∧ size ≤ total ∧ MadeWithin sizes (total - size) n := by
  constructor
  · rintro ⟨packs, hp, hc⟩
    obtain ⟨size, hs, hpos⟩ := hp.exists_pos ht
    refine ⟨size, hp.1 size hs, hpos, hp.size_le hs, packs.erase size, hp.erase hs, ?_⟩
    rw [Multiset.card_erase_of_mem hs]
    exact Nat.pred_le_pred hc
  · rintro ⟨size, hs, hpos, hle, packs, hp, hc⟩
    have hmade := hp.cons hs
    rw [Nat.sub_add_cancel hle] at hmade
    exact ⟨size ::ₘ packs, hmade, by rw [Multiset.card_cons]; omega⟩

/-- The fewest packs for a total are the least bound within which it is made. -/
theorem isLeast_packNumbers :
    IsLeast (packNumbers sizes total) n ↔ ∀ m, n ≤ m ↔ MadeWithin sizes total m := by
  constructor
  · rintro ⟨⟨packs, hp, hc⟩, hlow⟩ m
    constructor
    · intro hnm
      exact ⟨packs, hp, by omega⟩
    · rintro ⟨others, ho, hm⟩
      have := hlow ⟨others, ho, rfl⟩
      omega
  · intro h
    obtain ⟨packs, hp, hc⟩ := (h n).1 (Nat.le_refl n)
    have hlow : n ≤ packs.card := (h packs.card).2 ⟨packs, hp, Nat.le_refl _⟩
    refine ⟨⟨packs, hp, by omega⟩, ?_⟩
    rintro m ⟨others, ho, rfl⟩
    exact (h others.card).2 ⟨others, ho, Nat.le_refl _⟩

end MadeWithin

end PackPlan
