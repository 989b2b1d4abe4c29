import PackPlan.Proofs.Calculator.History

/-!
# PackPlan.Proofs.Calculator.Accounting

What the counters of a calculator's cache and the calls of its solver add up to, in terms of the turns
of a run. `Uses.adds` says what each way of a turn adds, and `accounts_after` sums it up.

A quantity is stored only after a lookup that did not find it, and such a lookup leaves nothing of the
quantity behind, also if it met an expired entry (`Recency.get_of_none`). So no entry is ever replaced
where it stands, and each miss that is stored counts as an insertion.
-/

namespace PackPlan
namespace Recency

section Counters

variable {r : Recency} {quantity : Int} {shipment : Shipment} {now : Nat}

theorem counters_get_of_some (hg : (r.get quantity now).1 = some shipment) :
    (r.get quantity now).2.counters = { r.counters with hits := r.counters.hits + 1 } := by
  cases hf : r.find? quantity with
  | none => rw [get_of_absent hf] at hg; cases hg
  | some found =>
    by_cases hold : r.isExpired now found = true
    · rw [get_of_expired hf hold] at hg; cases hg
    · rw [get_of_fresh hf hold]

theorem get_of_none (hg : (r.get quantity now).1 = none) :
    (r.get quantity now).2.find? quantity = none ∧
      ∃ n, (r.get quantity now).2.counters =
        { r.counters with misses := r.counters.misses + 1, expirations := n } := by
  cases hf : r.find? quantity with
  | none =>
    rw [get_of_absent hf]
    exact ⟨hf, _, rfl⟩
  | some found =>
    by_cases hold : r.isExpired now found = true
    · rw [get_of_expired hf hold]
      exact ⟨find?_eq_none fun x hx => (mem_others.1 hx).2, _, rfl⟩
    · rw [get_of_fresh hf hold] at hg; cases hg

theorem counters_set_of_new (hf : r.find? quantity = none) (shipment : Shipment) (now : Nat) :
    (r.set quantity shipment now).counters = { r.counters with
      insertions := r.counters.insertions + if r.capacity = 0 then 0 else 1
      evictions := r.counters.evictions +
        if r.capacity = 0 ∨ r.held.length < r.capacity then 0 else 1 } := by
  by_cases hc : r.capacity = 0
  · rw [set_of_disabled hc, if_pos hc, if_pos (.inl hc)]; rfl
  · rw [set_of_new hc hf, if_neg hc]
    by_cases hfull : r.capacity ≤ r.held.length
    · simp only [if_pos hfull]
      rw [if_neg (by omega)]
    · simp only [if_neg hfull]
      rw [if_pos (by omega)]

theorem counters_after_invalidate (r : Recency) (n : Nat) :
    (r.after (.replicate n .invalidate)).counters =
      { r.counters with invalidations := r.counters.invalidations + n } := by
  induction n generalizing r with
  | zero => rfl
  | succ n ih =>
    show (r.invalidate.after (.replicate n .invalidate)).counters = _
    rw [ih, invalidate, Nat.add_assoc, Nat.add_comm 1]

end Counters
end Recency

namespace Calculator

/-- The counters of a cache and the calls of a solver are what the turns of a run add up to. -/
structure Accounts (capacity : Nat) (n : Counters) (turns : List Turn) : Prop where
  lookups : n.hits + n.misses = turns.countP fun t => t.kind.lookup?.isSome
  misses : n.misses = turns.countP Turn.misses
  calls : (turns.map Turn.calls).sum = n.misses + turns.countP fun t => t.kind = .custom
  updates : n.updates = 0
  insertions : n.insertions = if capacity = 0 then 0 else turns.countP Turn.stores
  invalidations : n.invalidations =
    (turns.countP fun t => t.kind = .invalidation) + (turns.map Turn.replacements).sum

/-- What one turn adds. -/
structure Adds (capacity : Nat) (t : Turn) (n n' : Counters) : Prop where
  lookups : n'.hits + n'.misses = n.hits + n.misses + if t.kind.lookup?.isSome then 1 else 0
  misses : n'.misses = n.misses + if t.misses then 1 else 0
  calls : t.calls = (if t.misses then 1 else 0) + if t.kind = .custom then 1 else 0
  updates : n'.updates = n.updates
  insertions : n'.insertions =
    n.insertions + if capacity = 0 then 0 else if t.stores then 1 else 0
  invalidations : n'.invalidations =
    n.invalidations + (if t.kind = .invalidation then 1 else 0) + t.replacements

section Adding

variable {r : Recency} {t : Turn} {commands : List Cache.Command} {n n' : Counters}
  {turns : List Turn} {capacity : Nat}

theorem adds_of_unasked (ha : t.calls = 0) (hk : t.kind ≠ .custom)
    (hlookups : n'.hits + n'.misses = n.hits + n.misses + if t.kind.lookup?.isSome then 1 else 0)
    (hmisses : n'.misses = n.misses) (hupdates : n'.updates = n.updates)
    (hinsertions : n'.insertions = n.insertions)
    (hinvalidations : n'.invalidations =
      n.invalidations + (if t.kind = .invalidation then 1 else 0) + t.replacements) :
    Adds capacity t n n' where
  lookups := hlookups
  misses := by rw [hmisses, Turn.misses_of_unasked ha]; rfl
  calls := by rw [ha, Turn.misses_of_unasked ha, if_neg hk]; rfl
  updates := hupdates
  insertions := by
    rw [hinsertions, Turn.stores_of_unasked ha]
    split <;> rfl
  invalidations := hinvalidations

theorem adds_of_missed {quantity : Int} (ha : t.calls = 1) (hk : t.kind = .lookup quantity)
    (hhits : n'.hits = n.hits) (hmisses : n'.misses = n.misses + 1)
    (hupdates : n'.updates = n.updates)
    (hinsertions : n'.insertions =
      n.insertions + if capacity = 0 then 0 else if t.stores then 1 else 0)
    (hinvalidations : n'.invalidations = n.invalidations + t.step.during.replacements.length) :
    Adds capacity t n n' where
  lookups := by rw [hhits, hmisses, hk]; rfl
  misses := by rw [hmisses, Turn.misses_of_asked hk ha]; rfl
  calls := by rw [ha, Turn.misses_of_asked hk ha, hk]; rfl
  updates := hupdates
  insertions := hinsertions
  invalidations := by
    rw [hinvalidations, Turn.replacements_of_asked (by simp [hk]) ha, hk]; rfl

theorem Uses.adds (h : Uses r t commands) :
    Adds r.capacity t r.counters (r.after commands).counters := by
  cases h with
  | nothing hk ha =>
    have hno := Turn.replacements_of_unasked (by simp [hk]) ha
    refine adds_of_unasked ha (by simp [hk]) ?_ rfl rfl rfl ?_
    · rw [hk]; rfl
    · rw [hno, hk]; rfl
  | @hit quantity shipment hk hg hs he =>
    have ha : t.calls = 0 := by rw [Turn.calls, he]; rfl
    have hno := Turn.replacements_of_unasked (by simp [hk]) ha
    have hn : (r.after [.get quantity t.step.now]).counters = _ := Recency.counters_get_of_some hg
    rw [hn]
    refine adds_of_unasked ha (by simp [hk]) ?_ rfl rfl rfl ?_
    · rw [hk]
      exact Nat.add_right_comm ..
    · rw [hno, hk]; rfl
  | @lost quantity hk hg ha hs =>
    obtain ⟨-, e, hn⟩ := Recency.get_of_none hg
    have hn' : (r.after (.get quantity t.step.now :: _)).counters = _ :=
      Recency.counters_after_invalidate (r.get quantity t.step.now).2
        t.step.during.replacements.length
    have hstores : t.stores = false := by
      have hreplacements := Turn.replacements_of_asked (by simp [hk]) ha
      rcases hs with hs | hs <;> simp [Turn.stores, hreplacements, hs]
    rw [hn', hn]
    refine adds_of_missed ha hk rfl rfl rfl ?_ rfl
    rw [hstores]
    split <;> rfl
  | @stored quantity shipment hk hg ha hs hr =>
    -- the lookup left nothing of the quantity, so it is stored as a new one
    obtain ⟨hnew, e, hn⟩ := Recency.get_of_none hg
    have hc : (r.get quantity t.step.now).2.capacity = r.capacity :=
      (Recency.bounds_apply r (.get quantity t.step.now)).1
    have hn' : (r.after [.get quantity t.step.now, .set quantity shipment t.step.now]).counters = _ :=
      Recency.counters_set_of_new hnew shipment t.step.now
    have hstores : t.stores = true := by
      have hreplacements := Turn.replacements_of_asked (by simp [hk]) ha
      simp [Turn.stores, Turn.misses_of_asked hk ha, Turn.isAnswered, hreplacements, hs, hr]
    rw [hn', hn, hc]
    refine adds_of_missed ha hk rfl rfl rfl ?_ (by rw [hr]; rfl)
    rw [hstores]; rfl
  | custom hk ha =>
    have hreplacements := Turn.replacements_of_asked (by simp [hk]) ha
    rw [Recency.counters_after_invalidate]
    constructor <;> simp [Turn.misses, Turn.stores, Kind.lookup?, hk, ha, hreplacements]
  | replaced hk ha =>
    refine adds_of_unasked ha (by simp [hk]) ?_ rfl rfl rfl ?_
    · rw [hk]; rfl
    · rw [Turn.replacements, hk]; rfl
  | invalidated hk ha =>
    have hno := Turn.replacements_of_unasked (by simp [hk]) ha
    refine adds_of_unasked ha (by simp [hk]) ?_ rfl rfl rfl ?_
    · rw [hk]; rfl
    · rw [hno, hk]; rfl
  | purged hk ha =>
    have hno := Turn.replacements_of_unasked (by simp [hk]) ha
    refine adds_of_unasked ha (by simp [hk]) ?_ rfl rfl rfl ?_
    · rw [hk]; rfl
    · rw [hno, hk]; rfl

theorem Accounts.concat (h : Accounts capacity n turns) (ha : Adds capacity t n n') :
    Accounts capacity n' (turns ++ [t]) := by
  constructor
  · rw [ha.lookups, h.lookups, List.countP_append, List.countP_singleton]
  · rw [ha.misses, h.misses, List.countP_append, List.countP_singleton]
  · rw [ha.misses, List.map_append, List.sum_append, h.calls, List.map_singleton, List.sum_singleton,
      ha.calls, List.countP_append, List.countP_singleton]
    simp only [decide_eq_true_eq]
    omega
  · rw [ha.updates, h.updates]
  · rw [ha.insertions, h.insertions, List.countP_append, List.countP_singleton]
    split <;> rfl
  · rw [ha.invalidations, h.invalidations, List.countP_append, List.countP_singleton,
      List.map_append, List.sum_append, List.map_singleton, List.sum_singleton]
    simp only [decide_eq_true_eq]
    omega

end Adding

/-- **The books balance** after every run, whatever happens while the solver works. -/
theorem accounts_after (solve : Solve) (sizes : SizeSet) (capacity timeToLive : Nat)
    (steps : List Step) :
    Accounts capacity ((start sizes capacity timeToLive).after solve steps).cache.counters
      ((start sizes capacity timeToLive).history solve steps) := by
  suffices h : ∃ r, ((start sizes capacity timeToLive).after solve steps).cache.Represents r ∧
      r.capacity = capacity ∧
      Accounts capacity r.counters ((start sizes capacity timeToLive).history solve steps) by
    obtain ⟨r, hr, -, haccounts⟩ := h
    rw [hr.counters_eq]
    exact haccounts
  induction steps using List.reverseRecOn with
  | nil =>
    refine ⟨_, Cache.represents_empty capacity timeToLive, rfl, rfl, rfl, rfl, rfl, ?_, rfl⟩
    split <;> rfl
  | append_singleton steps step ih =>
    obtain ⟨r, hr, hcapacity, haccounts⟩ := ih
    obtain ⟨commands, huses, hnext⟩ := step.uses solve hr
    rw [after_concat, history_concat]
    refine ⟨_, hnext, (Recency.bounds_after r commands).1.trans hcapacity, haccounts.concat ?_⟩
    have hadds := huses.adds
    rwa [hcapacity] at hadds

end Calculator
end PackPlan
