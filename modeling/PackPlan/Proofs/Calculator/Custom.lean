import PackPlan.Proofs.Calculator.History
import PackPlan.Proofs.Calculator.Transparency
import PackPlan.Proofs.SizeSet.Canonical
import PackPlan.Proofs.Solver.Answer

/-!
# PackPlan.Proofs.Calculator.Custom

Orders that come with sizes of their own. Only the set of the positive ones counts. If there is any,
the solver answers for that set and the calculator stays as it is (`Bypasses`), and if there is none,
the order is one from the sizes in force.

An order with the very sizes in force is answered as without them, because the cache holds nothing but
what the solver finds for them. Only for nothing may they differ, as the solver is not asked then
(`result_eq_calculate_iff`). `custom_sizes` says all this of every state that a calculator gets into.
-/

namespace PackPlan
namespace Calculator

/-- The solver is asked once, for these sizes, and its answer is given. Nothing else happens than what
happens meanwhile. -/
structure Bypasses (solve : Solve) (during : Disturbance) (quantity : Int) (usable : SizeSet)
    (c : Calculator) (o : Outcome) : Prop where
  result : o.result = answer solve during quantity usable
  asked : o.events.filter Event.isAsked = [.asked quantity usable]
  next : o.next = c.disturb during
  kept : during.replacements = [] → o.next = c

section Custom

variable {solve : Solve} {now : Nat} {during : Disturbance} {c : Calculator} {quantity : Int}
  {usable : SizeSet} {given other : List Int}

theorem bypasses_ask (solve : Solve) (during : Disturbance) (c : Calculator) (quantity : Int)
    (usable : SizeSet) : Bypasses solve during quantity usable c (ask solve during c quantity usable) where
  result := rfl
  asked := filter_ask solve during c quantity usable
  next := rfl
  kept := disturb_of_kept c

theorem calculateWith_congr (h : ∀ size, 0 < size → (size ∈ given ↔ size ∈ other)) :
    c.calculateWith solve now during quantity given =
      c.calculateWith solve now during quantity other := by
  rw [calculateWith, calculateWith, SizeSet.ofPositives?_congr h]

theorem bypasses_of_collects (h : usable.Collects given) :
    Bypasses solve during quantity usable c
      (c.calculateWith solve now during quantity given) := by
  rw [calculateWith_of_usable (SizeSet.ofPositives?_eq_some_iff.2 h)]
  exact bypasses_ask solve during c quantity usable

/-- With the sizes in force, the cached and the uncached answer are the same. -/
theorem Faithful.result_eq_calculate_iff (h : Faithful solve c) (hs : c.sizes.Collects given)
    (he : during.error? = none) {later : Nat} {again : Disturbance} (ha : again.error? = none) :
    (c.calculateWith solve now during quantity given).result =
        (c.calculate solve later again quantity).result ↔
      0 < quantity ∨ solve quantity c.sizes = .ok (.empty quantity) := by
  rw [(bypasses_of_collects hs).result, answer_of_undisturbed he, h.result_eq_direct ha, direct]
  by_cases hn : quantity ≤ 0
  · rw [if_pos hn, or_iff_right (by omega)]
  · rw [if_neg hn]
    exact iff_of_true rfl (.inl (by omega))

end Custom

/-- **Sizes that come with an order** count as the set of the positive ones, and past the cache. With
the sizes in force the answer is that of the cache, for every order if the solver is `Solver.solve`.
Another solver may answer an order of nothing in its own way, where the cache never asks it: the
answers then agree only if it ships nothing too. -/
theorem custom_sizes (solve : Solve) (sizes : SizeSet) (capacity timeToLive : Nat)
    (steps : List Step) (now : Nat) (during : Disturbance) (quantity : Int) {given other : List Int}
    (hsame : ∀ size, 0 < size → (size ∈ given ↔ size ∈ other)) :
    let c := (start sizes capacity timeToLive).after solve steps
    let o := c.calculateWith solve now during quantity given
    o = c.calculateWith solve now during quantity other ∧
    ((∃ size ∈ given, 0 < size) → ∃ usable : SizeSet,
      usable.Collects given ∧ Bypasses solve during quantity usable c o) ∧
    ((∀ size ∈ given, size ≤ 0) → o = c.calculate solve now during quantity) ∧
    (c.sizes.Collects given → during.error? = none → ∀ later again, again.error? = none →
      (o.result = (c.calculate solve later again quantity).result ↔
        0 < quantity ∨ solve quantity c.sizes = .ok (.empty quantity)) ∧
      ∀ limits, solve = Solver.solve limits →
        o.result = (c.calculate solve later again quantity).result) := by
  intro c o
  refine ⟨calculateWith_congr hsame, ?_, ?_, ?_⟩
  · intro hpos
    obtain ⟨usable, hu⟩ := SizeSet.exists_ofPositives? hpos
    have hcollects := SizeSet.ofPositives?_eq_some_iff.1 hu
    exact ⟨usable, hcollects, bypasses_of_collects hcollects⟩
  · intro hnone
    exact calculateWith_of_none (SizeSet.ofPositives?_eq_none.2 hnone)
  · intro hown he later again ha
    have hfaithful := (faithful_start solve sizes capacity timeToLive).after steps
    have hiff : o.result = (c.calculate solve later again quantity).result ↔ _ :=
      hfaithful.result_eq_calculate_iff hown he ha
    refine ⟨hiff, ?_⟩
    rintro limits rfl
    refine hiff.2 ?_
    by_cases hn : quantity ≤ 0
    · exact .inr (Solver.solve_of_nonpos hn)
    · exact .inl (by omega)

/-- Two lists of the sizes in force: with either, the order is answered as without sizes, also of
nothing. -/
theorem custom_sizes_reordered :
    let solve : Solve := Solver.solve {}
    let sizes : SizeSet := ⟨[3, 2], by decide, by decide, by decide⟩
    let c := (start sizes 2 10).after solve [⟨.calculate 3, 0, {}⟩]
    (∀ size : Int, 0 < size → (size ∈ [3, -1, 2, 3] ↔ size ∈ [2, 0, 3])) ∧
      c.calculateWith solve 4 {} 5 [3, -1, 2, 3] = c.calculateWith solve 4 {} 5 [2, 0, 3] ∧
      (c.calculateWith solve 4 {} 5 [3, -1, 2, 3]).next = c ∧
      (c.calculateWith solve 4 {} 5 [3, -1, 2, 3]).result = (c.calculate solve 9 {} 5).result ∧
      (c.calculateWith solve 4 {} 0 [3, -1, 2, 3]).result = (c.calculate solve 9 {} 0).result := by
  intro solve sizes c
  have hsame : ∀ size : Int, 0 < size → (size ∈ [3, -1, 2, 3] ↔ size ∈ [2, 0, 3]) := by
    intro size hpos
    simp only [List.mem_cons, List.not_mem_nil, or_false]
    omega
  have hown : c.sizes.Collects [3, -1, 2, 3] := by
    have hsizes : c.sizes = sizes := sizes_calculate rfl
    rw [hsizes]
    intro x
    simp only [sizes, List.mem_cons, List.not_mem_nil, or_false]
    omega
  obtain ⟨heq, hpositive, -, hall⟩ :=
    custom_sizes solve sizes 2 10 [⟨.calculate 3, 0, {}⟩] 4 {} 5 hsame
  obtain ⟨-, -, -, hnothing⟩ :=
    custom_sizes solve sizes 2 10 [⟨.calculate 3, 0, {}⟩] 4 {} 0 hsame
  obtain ⟨usable, -, hbypasses⟩ := hpositive ⟨3, by decide, by decide⟩
  exact ⟨hsame, heq, hbypasses.kept rfl, (hall hown rfl 9 {} rfl).2 {} rfl,
    (hnothing hown rfl 9 {} rfl).2 {} rfl⟩

end Calculator
end PackPlan
