import PackPlan.Proofs.Calculator.Accounting
import PackPlan.Proofs.Calculator.Reuse

/-!
# PackPlan.Proofs.Calculator.Failure

What an order leaves behind when the solver gives up on it. Its quantity was looked up first, which
counts as a miss and drops the entry that it met, if that had reached the time to live. Nothing else is
touched, whatever state the calculator is in and wherever the entry stands (`Keeps`). If the sizes were
replaced meanwhile, the calculator starts over with the new ones (`Restarts`). Either way the quantity
is not there afterwards, so the next order of it asks the solver again (`failed_order`).
-/

namespace PackPlan

/-! ## Lookups that find nothing -/

/-- The entry that a lookup drops. -/
def Cache.lapses (c : Cache) (quantity : Int) (now : Nat) (e : Entry) : Bool :=
  e.quantity = quantity && c.isExpired now e

namespace Recency

def lapses (r : Recency) (quantity : Int) (now : Nat) (h : Held) : Bool :=
  h.quantity = quantity && r.isExpired now h

section Miss

variable {r : Recency} {quantity : Int} {now : Nat} {h found : Held}

theorem lapses_of_absent (hf : r.find? quantity = none) (hm : h ∈ r.held) :
    r.lapses quantity now h = false := by
  simp [lapses, quantity_ne_of_find? hf hm]

/-- No other entry has the quantity, so only the one that is found lapses. -/
theorem lapses_of_expired (ht : r.Tidy) (hf : r.find? quantity = some found)
    (hold : r.isExpired now found = true) (hm : h ∈ r.held) :
    r.lapses quantity now h = (h.quantity == quantity) := by
  obtain ⟨hfound, hq⟩ := mem_of_find? hf
  by_cases heq : h.quantity = quantity
  · rw [ht.eq_of_quantity hm hfound (heq.trans hq.symm), lapses, hold, Bool.and_true]; rfl
  · simp [lapses, heq]

theorem get_of_miss (ht : r.Tidy) (hg : (r.get quantity now).1 = none) :
    (r.get quantity now).2 = { r with
      held := r.held.filter fun h => !r.lapses quantity now h
      counters := { r.counters with
        misses := r.counters.misses + 1
        expirations := r.counters.expirations +
          if r.held.any (r.lapses quantity now) then 1 else 0 } } := by
  cases hf : r.find? quantity with
  | none =>
    have hkept : (r.held.filter fun h => !r.lapses quantity now h) = r.held := by
      rw [List.filter_eq_self]
      intro h hm
      rw [lapses_of_absent hf hm, Bool.not_false]
    have hnone : r.held.any (r.lapses quantity now) = false := by
      rw [List.any_eq_false]
      intro h hm
      simp [lapses_of_absent hf hm]
    rw [get_of_absent hf, hkept, hnone]; rfl
  | some found =>
    obtain ⟨hm, hq⟩ := mem_of_find? hf
    by_cases hold : r.isExpired now found = true
    · have hkept : (r.held.filter fun h => !r.lapses quantity now h) = r.others quantity := by
        refine List.filter_congr fun h hh => ?_
        rw [lapses_of_expired ht hf hold hh]; rfl
      have hany : r.held.any (r.lapses quantity now) = true :=
        List.any_eq_true.2 ⟨found, hm, (lapses_of_expired ht hf hold hm).trans (beq_iff_eq.2 hq)⟩
      rw [get_of_expired hf hold, hkept, hany]; rfl
    · rw [get_of_fresh hf hold] at hg
      cases hg

end Miss
end Recency

namespace Calculator

/-- The lookup counts, and its entry is gone if it had lapsed. The rest is as it was. -/
structure Keeps (quantity : Int) (now : Nat) (c next : Calculator) : Prop where
  sizes : next.sizes = c.sizes
  entries : next.cache.chain.map Entry.toHeld =
    (c.cache.chain.filter fun e => !c.cache.lapses quantity now e).map Entry.toHeld
  counters : next.cache.counters = { c.cache.counters with
    misses := c.cache.counters.misses + 1
    expirations := c.cache.counters.expirations +
      if c.cache.chain.any (c.cache.lapses quantity now) then 1 else 0 }
  capacity : next.cache.capacity = c.cache.capacity
  timeToLive : next.cache.timeToLive = c.cache.timeToLive

/-- The last of the new sizes are in force, and nothing is stored. -/
structure Restarts (quantity : Int) (now : Nat) (during : Disturbance) (c next : Calculator) :
    Prop where
  sizes : during.replacements.getLast? = some next.sizes
  entries : next.cache.chain = []
  size : next.cache.size = 0
  counters : next.cache.counters = { c.cache.counters with
    misses := c.cache.counters.misses + 1
    expirations := c.cache.counters.expirations +
      if c.cache.chain.any (c.cache.lapses quantity now) then 1 else 0
    invalidations := c.cache.counters.invalidations + during.replacements.length }

section Failure

variable {solve : Solve} {c : Calculator} {r : Recency} {quantity : Int} {now : Nat}
  {during : Disturbance} {cache : Cache} {e : SolverError} {shipment : Shipment}

theorem sizes_disturb (c : Calculator) (during : Disturbance) :
    (c.disturb during).sizes = during.replacements.getLast?.getD c.sizes := by
  rw [disturb]
  induction during.replacements generalizing c with
  | nil => rfl
  | cons sizes rest ih => rw [List.foldl_cons, ih, List.getLast?_cons, Option.getD_some]; rfl

theorem get_of_miss (h : c.cache.Represents r) (hg : (r.get quantity now).1 = none) :
    c.cache.get quantity now = (none, (c.cache.get quantity now).2) :=
  Prod.ext ((h.get quantity now).1.trans hg) rfl

/-- What a lookup that finds nothing leaves, in terms of the chain. -/
theorem lookup_of_miss (h : c.cache.Represents r) (hg : (r.get quantity now).1 = none) :
    (r.get quantity now).2.held =
        (c.cache.chain.filter fun e => !c.cache.lapses quantity now e).map Entry.toHeld ∧
      (r.get quantity now).2.counters = { c.cache.counters with
        misses := c.cache.counters.misses + 1
        expirations := c.cache.counters.expirations +
          if c.cache.chain.any (c.cache.lapses quantity now) then 1 else 0 } := by
  have hlapses : c.cache.lapses quantity now = r.lapses quantity now ∘ Entry.toHeld := by
    funext e
    rw [Cache.lapses, Cache.isExpired, h.timeToLive_eq]; rfl
  rw [Recency.get_of_miss h.tidy hg, ← h.map_chain, h.counters_eq, hlapses]
  exact ⟨List.filter_map .., by rw [List.any_map]⟩

theorem keeps_of_miss (h : c.cache.Represents r) (hg : (r.get quantity now).1 = none)
    (hnext : cache.Represents (r.get quantity now).2) :
    Keeps quantity now c { c with cache := cache } := by
  obtain ⟨hheld, hcounters⟩ := lookup_of_miss h hg
  obtain ⟨hcapacity, httl⟩ := Recency.bounds_apply r (.get quantity now)
  exact ⟨rfl, hnext.map_chain.trans hheld, hnext.counters_eq.trans hcounters,
    (hnext.capacity_eq.trans hcapacity).trans h.capacity_eq.symm,
    (hnext.timeToLive_eq.trans httl).trans h.timeToLive_eq.symm⟩

theorem restarts_of_miss (h : c.cache.Represents r) (hg : (r.get quantity now).1 = none)
    (hnext : cache.Represents (r.get quantity now).2) (hr : during.replacements ≠ []) :
    Restarts quantity now during c ({ c with cache := cache }.disturb during) := by
  obtain ⟨-, hcounters⟩ := lookup_of_miss h hg
  have hafter := represents_disturb (c := { c with cache := cache }) hnext during
  have hheld := List.map_eq_nil_iff.1
    (order_after_invalidate (r.get quantity now).2 (mt List.length_eq_zero_iff.1 hr))
  refine ⟨?_, ?_, ?_, ?_⟩
  · rw [sizes_disturb, List.getLast?_eq_some_getLast hr, Option.getD_some]
  · exact List.map_eq_nil_iff.1 (hafter.map_chain.trans hheld)
  · rw [hafter.size_eq, hheld, List.length_nil]
  · rw [hafter.counters_eq, Recency.counters_after_invalidate, hcounters]

/-- What is not there is asked for, once. -/
theorem asked_of_absent (h : c.cache.Represents r) (hq : 0 < quantity)
    (hf : r.find? quantity = none) (now : Nat) (during : Disturbance) :
    (c.calculate solve now during quantity).events.filter Event.isAsked =
      [.asked quantity c.sizes] := by
  have hg : (r.get quantity now).1 = none := by rw [Recency.get_of_absent hf]
  have hget := get_of_miss h hg
  cases ha : answer solve during quantity c.sizes with
  | error e => rw [calculate_of_failed hq hget ha]; rfl
  | ok shipment =>
    by_cases hr : during.replacements = []
    · rw [calculate_of_solved hq hget ha hr, List.filter_append, filter_evicted]; rfl
    · rw [calculate_of_overtaken hq hget ha hr]; rfl

/-- An order of what is not found is stored, if it is left alone. -/
theorem represents_of_solved (h : c.cache.Represents r) (now : Nat) (hq : 0 < quantity)
    (hg : (r.get quantity now).1 = none) (hs : solve quantity c.sizes = .ok shipment) :
    (c.calculate solve now {} quantity).next.sizes = c.sizes ∧
      (c.calculate solve now {} quantity).next.cache.Represents
        ((r.get quantity now).2.set quantity shipment now) := by
  rw [calculate_of_solved hq (get_of_miss h hg) ((answer_of_undisturbed rfl).trans hs) rfl]
  exact ⟨rfl, (h.get quantity now).2.set quantity shipment now⟩

end Failure

/-- **What a failed order leaves behind**, in every state that a calculator gets into: its lookup, or
the new sizes and nothing else. The next order of the quantity is solved anew. -/
theorem failed_order (solve : Solve) (sizes : SizeSet) (capacity timeToLive : Nat)
    (steps : List Step) (now : Nat) (during : Disturbance) (quantity : Int) (e : SolverError) :
    let c := (start sizes capacity timeToLive).after solve steps
    let o := c.calculate solve now during quantity
    o.result = .error e →
      (during.replacements = [] → Keeps quantity now c o.next) ∧
      (during.replacements ≠ [] → Restarts quantity now during c o.next) ∧
      ∀ later again, (o.next.calculate solve later again quantity).events.filter Event.isAsked =
        [.asked quantity o.next.sizes] := by
  intro c o hfailed
  obtain ⟨r, hr, -⟩ := (faithful_start solve sizes capacity timeToLive).after steps
  obtain ⟨hq, -, cache, hget, ho⟩ := calculate_eq_error hfailed
  obtain ⟨hfound, hnext⟩ := hr.get quantity now
  rw [hget] at hfound hnext
  have hg : (r.get quantity now).1 = none := hfound.symm
  have habsent := (Recency.get_of_none hg).1
  have hafter := represents_disturb (c := { c with cache := cache }) hnext during
  simp only [o, ho]
  refine ⟨fun hkept => ?_, restarts_of_miss hr hg hnext, ?_⟩
  · rw [disturb_of_kept _ hkept]
    exact keeps_of_miss hr hg hnext
  · refine asked_of_absent hafter hq ?_
    -- neither the lookup nor a replacement leaves the quantity there
    by_cases hkept : during.replacements = []
    · rw [hkept]
      exact habsent
    · refine Recency.find?_eq_none_iff.2 ?_
      rw [order_after_invalidate _ (mt List.length_eq_zero_iff.1 hkept)]
      exact List.not_mem_nil

/-- The entry of 3 is too old when the solver gives up on 3, and the one of 2 is not. -/
theorem failed_order_expired :
    let solve : Solve := Solver.solve {}
    let sizes : SizeSet := ⟨[3, 2], by decide, by decide, by decide⟩
    let other : SizeSet := ⟨[4], by decide, by decide, by decide⟩
    let c := (start sizes 2 10).after solve [⟨.calculate 3, 0, {}⟩, ⟨.calculate 2, 5, {}⟩]
    let o := c.calculate solve 12 .failure 3
    let during : Disturbance := { error? := some .noSizes, replacements := [other] }
    let o' := c.calculate solve 12 during 3
    o.result = .error .noSizes ∧ o'.result = .error .noSizes ∧ c.cache.recencyOrder = [2, 3] ∧
      Keeps 3 12 c o.next ∧ o.next.cache.recencyOrder = [2] ∧
      Restarts 3 12 during c o'.next := by
  have hthree : Solver.solve {} 3 ⟨[3, 2], by decide, by decide, by decide⟩ =
      .ok ⟨3, 3, [⟨3, 1⟩]⟩ := by cbv
  have htwo : Solver.solve {} 2 ⟨[3, 2], by decide, by decide, by decide⟩ =
      .ok ⟨2, 2, [⟨2, 1⟩]⟩ := by cbv
  intro solve sizes other c o during o'
  obtain ⟨hsizes, hfirst⟩ := represents_of_solved (c := start sizes 2 10)
    (Cache.represents_empty 2 10) 0 (by decide) rfl hthree
  obtain ⟨-, hsecond⟩ := represents_of_solved hfirst 5 (by decide) rfl
    ((congrArg (solve 2) hsizes).trans htwo)
  have hget : c.cache.get 3 12 = (none, (c.cache.get 3 12).2) := get_of_miss hsecond rfl
  have hfails : ∀ during, during.error? = some .noSizes → c.calculate solve 12 during 3 =
      ⟨.error .noSizes, { c with cache := (c.cache.get 3 12).2 }.disturb during,
        [.asked 3 c.sizes]⟩ := by
    intro during herror
    exact calculate_of_failed (by decide) hget (by rw [answer, herror])
  have hfailed : o.result = .error .noSizes := by simp only [o, hfails .failure rfl]
  have hfailed' : o'.result = .error .noSizes := by simp only [o', hfails during rfl]
  refine ⟨hfailed, hfailed', hsecond.recencyOrder_eq.trans rfl, ?_, ?_, ?_⟩
  · exact (failed_order solve sizes 2 10 _ 12 _ 3 _ hfailed).1 rfl
  · simp only [o, hfails .failure rfl]
    exact (hsecond.get 3 12).2.recencyOrder_eq.trans rfl
  · exact (failed_order solve sizes 2 10 _ 12 _ 3 _ hfailed').2.1 (by simp [during])

end Calculator
end PackPlan
