import PackPlan.Proofs.Calculator.Accounting
import PackPlan.Proofs.Calculator.Reuse

/-!
# PackPlan.Proofs.Calculator.Room

Caches with room for all that is asked for. In a run in which nothing gets too old, nothing clears and
whatever is looked up is settled, each quantity is missed once and never dropped, as long as there are
no more distinct ones than there may be entries (`missedOnce_after`).
-/

namespace PackPlan
namespace Calculator

open Cache (latest latest_of_card_le mem_latest card_eq_length)

/-- Each settled quantity was missed once, and nothing was dropped to make room. -/
structure MissedOnce (settled : List Int) (n : Counters) : Prop where
  misses : n.misses = settled.toFinset.card
  evictions : n.evictions = 0

section Room

variable {r : Recency} {t : Turn} {turns : List Turn} {commands : List Cache.Command}

theorem record_of_isSettled (h : t.IsSettled) :
    record (turns ++ [t]) = t.kind.lookup?.toList ++ record turns := by
  rw [← h.settled]
  cases hs : t.settled? with
  | none => exact record_of_kept h.kept hs
  | some quantity => exact record_of_settled hs

theorem mem_order_of_room (ho : r.order = latest r.capacity (record turns))
    (hroom : (record turns).toFinset.card ≤ r.capacity) (quantity : Int) :
    quantity ∈ r.order ↔ quantity ∈ record turns := by
  rw [ho, latest_of_card_le hroom, List.mem_eraseDups]

theorem length_of_room (ho : r.order = latest r.capacity (record turns))
    (hroom : (record turns).toFinset.card ≤ r.capacity) :
    r.held.length = (record turns).toFinset.card := by
  rw [card_eq_length, ← latest_of_card_le hroom, ← ho, Recency.order, List.length_map]

/-- One turn keeps it up, if there is room for what it settles. -/
theorem Uses.missedOnce (h : Uses r t commands) (hs : t.IsSettled) (hf : Fresh r t.step.now)
    (ho : r.order = latest r.capacity (record turns))
    (hroom : (record (turns ++ [t])).toFinset.card ≤ r.capacity)
    (hm : MissedOnce (record turns) r.counters) :
    MissedOnce (record (turns ++ [t])) (r.after commands).counters := by
  rw [record_of_isSettled hs] at hroom ⊢
  cases h with
  | nothing hk ha =>
    rw [hk]
    exact hm
  | @hit quantity shipment hk hg hreply he =>
    have hheld : quantity ∈ record turns := by
      obtain ⟨x, hx, rfl, -⟩ := Recency.exists_of_get hg
      have horder : x.quantity ∈ r.order := List.mem_map_of_mem hx
      rw [ho] at horder
      exact ((mem_latest ..).1 horder).1
    have hn : (r.after [.get quantity t.step.now]).counters = _ := Recency.counters_get_of_some hg
    rw [hn, hk]
    refine ⟨?_, hm.evictions⟩
    rw [Kind.lookup?, Option.toList_some, List.singleton_append, List.toFinset_cons,
      Finset.insert_eq_of_mem (List.mem_toFinset.2 hheld)]
    exact hm.misses
  | @lost quantity hk hg ha hlost =>
    have hno := hs.settled
    rw [settled?_of_lost hk ha hlost, hk] at hno
    cases hno
  | @stored quantity shipment hk hg ha hreply hr =>
    rw [hk, Kind.lookup?, Option.toList_some, List.singleton_append] at hroom ⊢
    -- what is not held was not settled before, so it is one more, and there was room for it
    have hle : (record turns).toFinset.card ≤ (quantity :: record turns).toFinset.card := by
      rw [List.toFinset_cons]
      exact Finset.card_le_card (Finset.subset_insert ..)
    have hfind := hf.find?_eq_none hg
    have hlength := length_of_room ho (hle.trans hroom)
    have hnew : quantity ∉ record turns := by
      rw [← mem_order_of_room ho (hle.trans hroom)]
      exact Recency.find?_eq_none_iff.1 hfind
    have hcard : (quantity :: record turns).toFinset.card = (record turns).toFinset.card + 1 := by
      rw [List.toFinset_cons, Finset.card_insert_of_notMem (by simpa using hnew)]
    obtain ⟨hnext, e, hn⟩ := Recency.get_of_none hg
    have hspare : r.capacity = 0 ∨ r.held.length < r.capacity := by omega
    have hget : (r.get quantity t.step.now).2.capacity = r.capacity ∧
        (r.get quantity t.step.now).2.held = r.held := by
      rw [Recency.get_of_absent hfind]
      exact ⟨rfl, rfl⟩
    show MissedOnce _ ((r.get quantity t.step.now).2.set quantity shipment t.step.now).counters
    rw [Recency.counters_set_of_new hnext, hget.1, hget.2, if_pos hspare, hn]
    refine ⟨?_, hm.evictions⟩
    rw [hcard, ← hm.misses]
  | custom hk ha =>
    rw [Recency.counters_after_invalidate, hk]
    exact ⟨hm.misses, hm.evictions⟩
  | replaced hk ha =>
    have hno := hs.kept
    simp [Turn.clears, Turn.replacements, hk] at hno
  | invalidated hk ha =>
    have hno := hs.kept
    simp [Turn.clears, hk] at hno
  | purged hk ha =>
    rw [hk]
    exact ⟨hm.misses, hm.evictions⟩

end Room

/-! ## Orders that are left alone -/

section Orders

variable {solve : Solve} {c : Calculator} {turns : List Turn}

theorem sizesAfter_of_answer {command : Command} {sizes : SizeSet}
    {result : Except SolverError Shipment} (h : directAnswer? solve sizes command = some result) :
    command.sizesAfter sizes = sizes := by
  cases command with
  | replaceSizes other => cases h
  | _ => rfl

/-- Orders that the solver answers, left alone, are all settled. -/
theorem Faithful.isSettled_history (h : Faithful solve c) (steps : List Step)
    (ho : ∀ step ∈ steps, step.during = {} ∧
      ∃ shipment, directAnswer? solve c.sizes step.command = some (.ok shipment)) :
    ∀ t ∈ c.history solve steps, t.IsSettled := by
  induction steps generalizing c with
  | nil => intro t ht; cases ht
  | cons step rest ih =>
    obtain ⟨hduring, shipment, hs⟩ := ho step (List.mem_cons_self ..)
    have hsizes : (step.run solve c).2.1.sizes = c.sizes := by
      rw [Step.run, hduring, (h.step_direct step.command step.now).2, sizesAfter_of_answer hs]
    rw [history, List.forall_mem_cons]
    refine ⟨h.settles step hduring hs, ih (h.step step) fun other hm => ?_⟩
    rw [hsizes]
    exact ho other (List.mem_cons_of_mem _ hm)

theorem map_step_history (solve : Solve) (c : Calculator) (steps : List Step) :
    (c.history solve steps).map Turn.step = steps := by
  induction steps generalizing c with
  | nil => rfl
  | cons step rest ih => rw [history, List.map_cons, ih]; rfl

def lookups (steps : List Step) : List Int := steps.filterMap fun step => step.command.kind.lookup?

theorem lookups_history (solve : Solve) (c : Calculator) (steps : List Step) :
    (c.history solve steps).filterMap (fun t => t.kind.lookup?) = lookups steps := by
  have hmap := congrArg lookups (map_step_history solve c steps)
  rw [lookups, List.filterMap_map] at hmap
  exact hmap

theorem record_of_all_settled (hs : ∀ t ∈ turns, t.IsSettled) :
    record turns = (turns.filterMap fun t => t.kind.lookup?).reverse := by
  have hrecord : record ([] ++ turns) = _ := record_append fun t ht => (hs t ht).kept
  rw [List.nil_append, List.filterMap_congr fun t ht => (hs t ht).settled] at hrecord
  exact hrecord.trans (List.append_nil _)

end Orders

/-- After a run with room for all that it settles, in which nothing gets too old, each quantity was
missed once and is still held. -/
theorem missedOnce_after (solve : Solve) (sizes : SizeSet) {capacity timeToLive : Nat}
    {steps : List Step} (hu : Unexpired timeToLive steps)
    (hs : ∀ t ∈ (start sizes capacity timeToLive).history solve steps, t.IsSettled)
    (hroom : (record ((start sizes capacity timeToLive).history solve steps)).toFinset.card ≤
      capacity) :
    let m := ((start sizes capacity timeToLive).after solve steps).cache.metrics
    let settled := record ((start sizes capacity timeToLive).history solve steps)
    MissedOnce settled m.toCounters ∧ m.size = settled.toFinset.card := by
  suffices h : ∃ r, ((start sizes capacity timeToLive).after solve steps).cache.Represents r ∧
      r.capacity = capacity ∧ r.timeToLive = timeToLive ∧
      Traces steps ((start sizes capacity timeToLive).history solve steps) r ∧
      MissedOnce (record ((start sizes capacity timeToLive).history solve steps)) r.counters by
    obtain ⟨r, hr, rfl, -, htraces, hmissed⟩ := h
    intro m settled
    simp only [m, hr.metrics_eq]
    exact ⟨hmissed, length_of_room htraces.order hroom⟩
  induction steps using List.reverseRecOn with
  | nil =>
    exact ⟨_, Cache.represents_empty capacity timeToLive, rfl, rfl, traces_nil .., rfl, rfl⟩
  | append_singleton steps step ih =>
    rw [history_concat] at hs hroom
    have hsettled := hs _ (List.mem_append_right _ (List.mem_singleton_self _))
    have hless : (record ((start sizes capacity timeToLive).history solve steps)).toFinset.card ≤
        capacity := by
      rw [record_of_isSettled hsettled, List.toFinset_append] at hroom
      exact (Finset.card_le_card Finset.subset_union_right).trans hroom
    obtain ⟨r, hr, hcapacity, httl, htraces, hmissed⟩ :=
      ih (List.pairwise_append.1 hu).1 (fun t ht => hs t (List.mem_append_left _ ht)) hless
    obtain ⟨commands, huses, hnext⟩ := step.uses solve hr
    obtain ⟨hcapacity', httl'⟩ := Recency.bounds_after r commands
    rw [← httl] at hu
    rw [after_concat, history_concat]
    exact ⟨_, hnext, hcapacity'.trans hcapacity, httl'.trans httl, htraces.concat hr huses hu,
      huses.missedOnce hsettled (htraces.fresh hu) htraces.order
        (hroom.trans_eq hcapacity.symm) hmissed⟩

end Calculator
end PackPlan
