import Mathlib.Data.List.Sort
import PackPlan.Proofs.SizeSet.Attainable

/-!
# PackPlan.Proofs.SizeSet.Canonical

A set of sizes is determined by its members (`eq_of_mem_iff`), because a strictly descending list is.
So the set made from a list is the one set that has the positive ones as its members (`Collects`,
`ofPositives?_eq_some_iff`), and neither order nor repetitions in the list make a difference
(`ofPositives?_congr`).
-/

namespace PackPlan
namespace SizeSet

/-- The members are the positive sizes in the list. -/
def Collects (s : SizeSet) (given : List Int) : Prop :=
  ∀ x : Nat, x ∈ s.toList ↔ (x : Int) ∈ given ∧ 0 < x

section Members

variable {s t : SizeSet} {given other : List Int}

theorem eq_of_mem_iff (h : ∀ x, x ∈ s.toList ↔ x ∈ t.toList) : s = t :=
  SizeSet.ext (s.pairwise.eq_of_mem_iff t.pairwise h)

theorem ofPositives?_eq_some_iff : ofPositives? given = some s ↔ s.Collects given := by
  refine ⟨fun h x => mem_ofPositives? h, fun h => ?_⟩
  cases hg : ofPositives? given with
  | none =>
    -- a set is never empty, so there is a positive one
    have hlargest := (h s.largest).1 (List.head_mem s.ne_nil)
    have hnone := ofPositives?_eq_none.1 hg _ hlargest.1
    omega
  | some t => rw [eq_of_mem_iff fun x => (mem_ofPositives? hg).trans (h x).symm]

theorem exists_ofPositives? (h : ∃ size ∈ given, 0 < size) : ∃ s, ofPositives? given = some s := by
  obtain ⟨size, hm, hpos⟩ := h
  cases hg : ofPositives? given with
  | none =>
    have hnone := ofPositives?_eq_none.1 hg size hm
    omega
  | some s => exact ⟨s, rfl⟩

theorem ofPositives?_congr (h : ∀ size, 0 < size → (size ∈ given ↔ size ∈ other)) :
    ofPositives? given = ofPositives? other := by
  cases hg : ofPositives? given with
  | none =>
    rw [eq_comm, ofPositives?_eq_none]
    intro size hm
    by_contra hpos
    have hnone := ofPositives?_eq_none.1 hg size ((h size (by omega)).2 hm)
    omega
  | some s =>
    rw [eq_comm, ofPositives?_eq_some_iff]
    intro x
    rw [mem_ofPositives? hg]
    exact and_congr_left fun hpos => h x (by omega)

end Members
end SizeSet
end PackPlan
