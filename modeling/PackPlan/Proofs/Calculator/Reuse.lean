import PackPlan.Proofs.Cache.Latest
import PackPlan.Proofs.Calculator.History
import PackPlan.Proofs.Calculator.Transparency

/-!
# PackPlan.Proofs.Calculator.Reuse

When an order is answered from the cache, in terms of the turns before it. A turn settles a quantity if
the solver or the cache answers for it and the sizes stay in force; only such turns store or touch
anything. A turn clears if it empties the cache. What was settled since the last turn that clears is the
`record` of a run, and as long as nothing gets too old, the order of the cache is the latest of the
record (`Uses.order`, `traces_after`).

So an order is answered from the cache exactly if its quantity is in the record and fewer others came
after it than the cache may hold (`served_iff`).
-/

namespace PackPlan
namespace Calculator

open Cache (latest latest_nil since)

namespace Turn

/-- The quantity that is answered for from the sizes in force, if they stay in force. -/
def settled? (t : Turn) : Option Int :=
  if t.isAnswered ∧ t.replacements = 0 then t.kind.lookup? else none

def clears (t : Turn) : Bool := t.kind = .invalidation || t.replacements != 0

/-- Nothing clears, and what is looked up is settled. -/
structure IsSettled (t : Turn) : Prop where
  kept : t.clears = false
  settled : t.settled? = t.kind.lookup?

end Turn

/-- What was settled since a turn that clears, the last one first. -/
def record (turns : List Turn) : List Int :=
  (turns.reverse.takeWhile fun t => !t.clears).filterMap Turn.settled?

/-- Some turn settled the quantity, and since the last one that did, no turn cleared and fewer others
were settled than there may be entries. -/
def Reusable (capacity : Nat) (quantity : Int) (turns : List Turn) : Prop :=
  ∃ earlier turn later, turns = earlier ++ turn :: later ∧ turn.settled? = some quantity ∧
    (∀ t ∈ later, t.settled? ≠ some quantity) ∧ (∀ t ∈ later, t.clears = false) ∧
    (later.filterMap Turn.settled?).toFinset.card < capacity

/-- Answered from the cache, and the solver is not asked. -/
def Outcome.Served (quantity : Int) (o : Outcome) : Prop :=
  ∃ shipment, o.result = .ok shipment ∧ o.events = [.hit quantity shipment.total]

/-- No step is as long after an earlier one as the time to live. -/
def Unexpired (timeToLive : Nat) (steps : List Step) : Prop :=
  steps.Pairwise fun earlier later => later.now - earlier.now < timeToLive

section Record

variable {turns earlier later : List Turn} {t : Turn} {quantity : Int}

theorem not_clears_of_settled (h : t.settled? = some quantity) : t.clears = false := by
  unfold Turn.settled? at h
  split at h
  · rename_i hs
    cases hk : t.kind <;> simp_all [Kind.lookup?, Turn.clears]
  · cases h

theorem record_of_clears (h : t.clears = true) : record (turns ++ [t]) = [] := by
  simp [record, h]

theorem record_of_kept (hc : t.clears = false) (hs : t.settled? = none) :
    record (turns ++ [t]) = record turns := by
  simp [record, hc, hs]

theorem record_of_settled (h : t.settled? = some quantity) :
    record (turns ++ [t]) = quantity :: record turns := by
  simp [record, not_clears_of_settled h, h]

theorem record_append (hl : ∀ t ∈ later, t.clears = false) :
    record (earlier ++ later) = (later.filterMap Turn.settled?).reverse ++ record earlier := by
  rw [record, List.reverse_append, List.takeWhile_append_of_pos (by simpa using hl),
    List.filterMap_append, List.filterMap_reverse]
  rfl

/-- A quantity in the record was settled by a turn since which no turn cleared. -/
theorem exists_split_of_mem_record (hm : quantity ∈ record turns) :
    ∃ earlier turn later, turns = earlier ++ turn :: later ∧ turn.settled? = some quantity ∧
      (∀ t ∈ later, t.settled? ≠ some quantity) ∧ (∀ t ∈ later, t.clears = false) := by
  induction turns using List.reverseRecOn with
  | nil => cases hm
  | append_singleton turns t ih =>
    by_cases hs : t.settled? = some quantity
    · exact ⟨turns, t, [], rfl, hs, by simp, by simp⟩
    · have hc : t.clears = false := by
        by_contra hc
        rw [record_of_clears (by simpa using hc)] at hm
        cases hm
      have hrest : quantity ∈ record turns := by
        cases hother : t.settled? with
        | none => rwa [record_of_kept hc hother] at hm
        | some other =>
          rw [record_of_settled hother, List.mem_cons] at hm
          exact hm.resolve_left fun heq => hs (heq ▸ hother)
      obtain ⟨earlier, turn, later, rfl, hturn, hothers, hclears⟩ := ih hrest
      refine ⟨earlier, turn, later ++ [t], by simp, hturn, ?_, ?_⟩
      · simpa [or_imp, forall_and] using ⟨hothers, hs⟩
      · simpa [or_imp, forall_and] using ⟨hclears, hc⟩

theorem since_record (hturn : t.settled? = some quantity)
    (hothers : ∀ t ∈ later, t.settled? ≠ some quantity) (hclears : ∀ t ∈ later, t.clears = false) :
    quantity ∈ record (earlier ++ t :: later) ∧
      since quantity (record (earlier ++ t :: later)) = (later.filterMap Turn.settled?).reverse := by
  have hno : quantity ∉ (later.filterMap Turn.settled?).reverse := by
    simpa using hothers
  have hall : ∀ s ∈ t :: later, s.clears = false := by
    simpa using ⟨not_clears_of_settled hturn, hclears⟩
  rw [record_append hall, List.filterMap_cons_some hturn, List.reverse_cons, List.append_assoc]
  refine ⟨by simp, ?_⟩
  rw [Cache.since_append_of_not_mem hno]
  simp [since]

theorem reusable_iff {capacity : Nat} :
    Reusable capacity quantity turns ↔ quantity ∈ latest capacity (record turns) := by
  rw [Cache.mem_latest]
  constructor
  · rintro ⟨earlier, turn, later, rfl, hturn, hothers, hclears, hfew⟩
    obtain ⟨hm, hsince⟩ := since_record hturn hothers hclears
    rw [hsince, List.toFinset_reverse]
    exact ⟨hm, hfew⟩
  · rintro ⟨hm, hfew⟩
    obtain ⟨earlier, turn, later, rfl, hturn, hothers, hclears⟩ := exists_split_of_mem_record hm
    rw [(since_record hturn hothers hclears).2, List.toFinset_reverse] at hfew
    exact ⟨earlier, turn, later, rfl, hturn, hothers, hclears, hfew⟩

end Record

/-! ## Order of the cache -/

section Order

variable {r : Recency} {t : Turn} {turns : List Turn} {commands : List Cache.Command}
  {quantity : Int} {now : Nat}

/-- Nothing that is held has reached the time to live. -/
def Fresh (r : Recency) (now : Nat) : Prop := ∀ h ∈ r.held, now - h.created < r.timeToLive

theorem Fresh.not_isExpired (hf : Fresh r now) {h : Held} (hm : h ∈ r.held) :
    ¬ r.isExpired now h = true := by
  rw [Recency.isExpired_iff, Nat.not_le]
  exact hf h hm

theorem Fresh.find?_eq_none (hf : Fresh r now) (hg : (r.get quantity now).1 = none) :
    r.find? quantity = none := by
  cases hfind : r.find? quantity with
  | none => rfl
  | some h =>
    rw [Recency.get_of_fresh hfind (hf.not_isExpired (Recency.mem_of_find? hfind).1)] at hg
    cases hg

theorem Fresh.get (hf : Fresh r now) (hg : (r.get quantity now).1 = none) :
    (r.get quantity now).2.order = r.order := by
  rw [Recency.get_of_absent (hf.find?_eq_none hg)]; rfl

theorem Fresh.purge (hf : Fresh r now) : (r.purge now).2.order = r.order := by
  have hall : (r.held.filter fun h => !r.isExpired now h) = r.held := by
    rw [List.filter_eq_self]
    intro h hm
    simpa using hf.not_isExpired hm
  rw [Recency.order, Recency.purge, hall]; rfl

theorem order_after_invalidate (r : Recency) {n : Nat} (hn : n ≠ 0) :
    (r.after (.replicate n .invalidate)).order = [] := by
  obtain ⟨k, rfl⟩ := Nat.exists_eq_succ_of_ne_zero hn
  rw [List.replicate_succ', Recency.after_concat]; rfl

theorem order_after_disturbance {r' : Recency} (hk : t.kind.lookup?.isSome ∨ t.kind = .custom)
    (ha : t.calls = 1) (hs : t.settled? = none) (ho : r'.order = latest r.capacity (record turns)) :
    (r'.after (.replicate t.step.during.replacements.length .invalidate)).order =
      latest r.capacity (record (turns ++ [t])) := by
  have hclears : t.clears = (t.step.during.replacements.length != 0) := by
    cases hkind : t.kind <;> simp_all [Turn.clears, Turn.replacements, Kind.lookup?]
  -- without a replacement everything stays, and with one everything goes
  by_cases hn : t.step.during.replacements.length = 0
  · rw [hn] at hclears ⊢
    rw [record_of_kept hclears hs]
    exact ho
  · rw [order_after_invalidate r' hn, record_of_clears (by simpa [hclears] using hn), latest_nil]

theorem record_of_idle (hk : t.kind = .nothing ∨ t.kind = .purge) (ha : t.calls = 0) :
    record (turns ++ [t]) = record turns := by
  rcases hk with hk | hk
  all_goals
    have hno := Turn.replacements_of_unasked (by simp [hk]) ha
    refine record_of_kept ?_ ?_
    · rw [Turn.clears, hno, hk]; rfl
    · rw [Turn.settled?, hk]
      exact ite_self none

theorem settled?_of_lost (hk : t.kind = .lookup quantity) (ha : t.calls = 1)
    (hs : t.isAnswered = false ∨ t.step.during.replacements ≠ []) : t.settled? = none := by
  rcases hs with hs | hs <;> simp [Turn.settled?, Turn.replacements, hk, ha, hs]

/-- One turn adds to the record what it puts in front. -/
theorem Uses.order (h : Uses r t commands) (hf : Fresh r t.step.now)
    (ho : r.order = latest r.capacity (record turns)) :
    (r.after commands).order = latest r.capacity (record (turns ++ [t])) := by
  cases h with
  | nothing hk ha =>
    rw [record_of_idle (.inl hk) ha]
    exact ho
  | @hit quantity shipment hk hg hs he =>
    have ha : t.calls = 0 := by rw [Turn.calls, he]; rfl
    have hsettled : t.settled? = some quantity := by
      simp [Turn.settled?, Turn.isAnswered, Turn.replacements, Kind.lookup?, hk, ha, hs]
    rw [record_of_settled hsettled]
    exact Recency.order_get ho hg
  | @lost quantity hk hg ha hs =>
    have hsettled := settled?_of_lost hk ha hs
    have hlookup : t.kind.lookup?.isSome := by rw [hk]; rfl
    exact order_after_disturbance (.inl hlookup) ha hsettled ((hf.get hg).trans ho)
  | @stored quantity shipment hk hg ha hs hr =>
    -- nothing is too old, so what is not found is not held
    have hsettled : t.settled? = some quantity := by
      simp [Turn.settled?, Turn.isAnswered, Turn.replacements, Kind.lookup?, hk, ha, hs, hr]
    have hfind := hf.find?_eq_none hg
    rw [record_of_settled hsettled]
    show ((r.get quantity t.step.now).2.set quantity shipment t.step.now).order = _
    rw [Recency.get_of_absent hfind]
    exact Recency.order_set (r := { r with counters := _ }) ho hfind
  | custom hk ha =>
    have hsettled : t.settled? = none := by simp [Turn.settled?, Kind.lookup?, hk]
    exact order_after_disturbance (.inr hk) ha hsettled ho
  | replaced hk ha =>
    rw [record_of_clears (by simp [Turn.clears, Turn.replacements, hk]), latest_nil]; rfl
  | invalidated hk ha =>
    rw [record_of_clears (by simp [Turn.clears, hk]), latest_nil]; rfl
  | purged hk ha =>
    rw [record_of_idle (.inr hk) ha]
    exact hf.purge.trans ho

end Order

/-! ## Runs -/

section Runs

variable {solve : Solve} {c : Calculator} {r : Recency} {quantity : Int}

theorem created_after (hr : c.cache.Represents r) (commands : List Cache.Command) {h : Held}
    (hm : h ∈ (r.after commands).held) :
    h ∈ r.held ∨ ∃ quantity shipment, .set quantity shipment h.created ∈ commands := by
  induction commands using List.reverseRecOn with
  | nil => exact .inl hm
  | append_singleton commands command ih =>
    rw [Recency.after_concat, Recency.mem_apply (hr.after commands).tidy] at hm
    rcases hm with ⟨-, rfl⟩ | ⟨hm, -⟩
    · exact .inr ⟨h.quantity, h.shipment, by simp⟩
    · refine (ih hm).imp_right fun ⟨quantity, shipment, hs⟩ => ⟨quantity, shipment, ?_⟩
      exact List.mem_append_left _ hs

theorem Uses.created {t : Turn} {commands : List Cache.Command} (h : Uses r t commands)
    {shipment : Shipment} {created : Nat} (hs : .set quantity shipment created ∈ commands) :
    created = t.step.now := by
  cases h <;> simp_all

/-- The list behind a cache after these steps, if nothing got too old: its order, and when its entries
came. -/
structure Traces (steps : List Step) (turns : List Turn) (r : Recency) : Prop where
  order : r.order = latest r.capacity (record turns)
  created : ∀ h ∈ r.held, ∃ step ∈ steps, h.created = step.now

theorem traces_nil (capacity timeToLive : Nat) :
    Traces [] [] (Recency.empty capacity timeToLive) where
  order := (latest_nil capacity).symm
  created := fun _ hm => nomatch hm

theorem Traces.fresh {steps : List Step} {turns : List Turn} (ht : Traces steps turns r)
    {step : Step} (hu : Unexpired r.timeToLive (steps ++ [step])) : Fresh r step.now := by
  intro h hm
  obtain ⟨earlier, he, hnow⟩ := ht.created h hm
  rw [hnow]
  exact (List.pairwise_append.1 hu).2.2 earlier he step (List.mem_singleton_self _)

theorem Traces.concat {steps : List Step} {turns : List Turn} (ht : Traces steps turns r)
    (hr : c.cache.Represents r) {t : Turn} {commands : List Cache.Command}
    (huses : Uses r t commands) (hu : Unexpired r.timeToLive (steps ++ [t.step])) :
    Traces (steps ++ [t.step]) (turns ++ [t]) (r.after commands) where
  order := by
    rw [huses.order (ht.fresh hu) ht.order, (Recency.bounds_after r commands).1]
  created := by
    intro h hm
    rcases created_after hr commands hm with hm | ⟨quantity, shipment, hs⟩
    · obtain ⟨earlier, he, hnow⟩ := ht.created h hm
      exact ⟨earlier, List.mem_append_left _ he, hnow⟩
    · exact ⟨t.step, by simp, huses.created hs⟩

theorem traces_after (solve : Solve) (sizes : SizeSet) (capacity timeToLive : Nat)
    (steps : List Step) (hu : Unexpired timeToLive steps) :
    ∃ r, ((start sizes capacity timeToLive).after solve steps).cache.Represents r ∧
      r.capacity = capacity ∧ r.timeToLive = timeToLive ∧
      Traces steps ((start sizes capacity timeToLive).history solve steps) r := by
  induction steps using List.reverseRecOn with
  | nil => exact ⟨_, Cache.represents_empty capacity timeToLive, rfl, rfl, traces_nil ..⟩
  | append_singleton steps step ih =>
    obtain ⟨r, hr, hcapacity, httl, htraces⟩ := ih (List.pairwise_append.1 hu).1
    obtain ⟨commands, huses, hnext⟩ := step.uses solve hr
    obtain ⟨hcapacity', httl'⟩ := Recency.bounds_after r commands
    rw [← httl] at hu
    rw [after_concat, history_concat]
    exact ⟨_, hnext, hcapacity'.trans hcapacity, httl'.trans httl, htraces.concat hr huses hu⟩

theorem served_iff_get (h : c.cache.Represents r) (hq : 0 < quantity) (now : Nat)
    (during : Disturbance) :
    (c.calculate solve now during quantity).Served quantity ↔
      (r.get quantity now).1.isSome = true := by
  obtain ⟨commands, huses, -⟩ :=
    uses_calculate solve h ⟨.calculate quantity, now, during⟩ rfl
  have hlookup : Kind.ofOrder quantity = .lookup quantity := if_pos hq
  cases huses with
  | @hit other shipment hk hg hs he =>
    cases hlookup.symm.trans hk
    rw [hg]
    exact iff_of_true ⟨shipment, Reply.shipment.inj hs, he⟩ rfl
  | @lost other hk hg ha hs =>
    cases hlookup.symm.trans hk
    rw [hg]
    refine iff_of_false (fun ⟨shipment, _, he⟩ => ?_) (by simp)
    rw [Turn.calls, he] at ha
    cases ha
  | @stored other shipment hk hg ha hs hr =>
    cases hlookup.symm.trans hk
    rw [hg]
    refine iff_of_false (fun ⟨shipment, _, he⟩ => ?_) (by simp)
    rw [Turn.calls, he] at ha
    cases ha
  | _ hk => cases hlookup.symm.trans hk

theorem Fresh.get_isSome {now : Nat} (hf : Fresh r now) :
    (r.get quantity now).1.isSome = true ↔ quantity ∈ r.order := by
  cases hfind : r.find? quantity with
  | none => simp [Recency.get_of_absent hfind, Recency.find?_eq_none_iff.1 hfind]
  | some h =>
    have hm := Recency.mem_of_find? hfind
    rw [Recency.get_of_fresh hfind (hf.not_isExpired hm.1)]
    exact iff_of_true rfl (List.mem_map.2 ⟨h, hm⟩)

end Runs

theorem isAnswered_of_answer? {t : Turn} {shipment : Shipment}
    (h : t.reply.answer? = some (.ok shipment)) : t.isAnswered = true := by
  rw [Turn.isAnswered]
  cases hr : t.reply with
  | shipment result =>
    rw [hr] at h
    cases h; rfl
  | purged count => rw [hr] at h; cases h
  | done => rw [hr] at h; cases h

theorem kind_of_answer {command : Command} {sizes : SizeSet}
    {result : Except SolverError Shipment} (h : directAnswer? solve sizes command = some result) :
    command.kind ≠ .replacement ∧ command.kind ≠ .invalidation := by
  have horder : ∀ quantity, Kind.ofOrder quantity ≠ .replacement ∧
      Kind.ofOrder quantity ≠ .invalidation := by
    intro quantity
    rw [Kind.ofOrder]
    split <;> simp
  cases command with
  | calculate quantity => exact horder quantity
  | calculateWith quantity given =>
    rw [Command.kind]
    split
    · exact horder quantity
    · simp
  | replaceSizes other => cases h
  | invalidate => cases h
  | purge => cases h

/-- An order that the solver answers, left alone, settles what it looks up. -/
theorem Faithful.settles (h : Faithful solve c) (step : Step) (hu : step.during = {})
    {shipment : Shipment} (hs : directAnswer? solve c.sizes step.command = some (.ok shipment)) :
    (step.turn solve c).IsSettled := by
  obtain ⟨command, now, during⟩ := step
  subst hu
  obtain ⟨hreplacement, hinvalidation⟩ := kind_of_answer hs
  have hanswered := isAnswered_of_answer? (t := Step.turn solve ⟨command, now, {}⟩ c)
    ((h.step_direct command now).1.trans hs)
  have hkept : (Step.turn solve ⟨command, now, {}⟩ c).replacements = 0 :=
    (if_neg hreplacement).trans (ite_self 0)
  refine ⟨?_, if_pos ⟨hanswered, hkept⟩⟩
  rw [Turn.clears, hkept, Turn.kind]
  exact Bool.or_eq_false_iff.2 ⟨decide_eq_false hinvalidation, rfl⟩

/-- **When an order is answered from the cache**: after every run in which nothing gets too old, exactly
if its quantity was settled, and since then nothing cleared the cache and fewer other quantities were
settled than there may be entries. -/
theorem served_iff (solve : Solve) (sizes : SizeSet) (capacity timeToLive : Nat)
    (steps : List Step) (now : Nat) (during : Disturbance) {quantity : Int} (hq : 0 < quantity)
    (hu : Unexpired timeToLive (steps ++ [⟨.calculate quantity, now, during⟩])) :
    (((start sizes capacity timeToLive).after solve steps).calculate solve now during
      quantity).Served quantity ↔
      Reusable capacity quantity ((start sizes capacity timeToLive).history solve steps) := by
  obtain ⟨r, hr, hcapacity, httl, htraces⟩ :=
    traces_after solve sizes capacity timeToLive steps (List.pairwise_append.1 hu).1
  rw [← httl] at hu
  have hfresh : Fresh r now := htraces.fresh hu
  rw [served_iff_get hr hq, hfresh.get_isSome, htraces.order, hcapacity, reusable_iff]

/-- With another quantity in between, an order is answered from a cache for two but not from one for
one. -/
theorem served_iff_other :
    let solve : Solve := Solver.solve {}
    let sizes : SizeSet := ⟨[3, 2], by decide, by decide, by decide⟩
    let steps : List Step := [⟨.calculate 3, 0, {}⟩, ⟨.calculate 2, 4, {}⟩]
    0 < (3 : Int) ∧ Unexpired 10 (steps ++ [⟨.calculate 3, 9, {}⟩]) ∧
      (((start sizes 2 10).after solve steps).calculate solve 9 {} 3).Served 3 ∧
      ¬ (((start sizes 1 10).after solve steps).calculate solve 9 {} 3).Served 3 := by
  have hthree : directAnswer? (Solver.solve {}) ⟨[3, 2], by decide, by decide, by decide⟩
      (.calculate 3) = some (.ok ⟨3, 3, [⟨3, 1⟩]⟩) := by cbv
  have htwo : directAnswer? (Solver.solve {}) ⟨[3, 2], by decide, by decide, by decide⟩
      (.calculate 2) = some (.ok ⟨2, 2, [⟨2, 1⟩]⟩) := by cbv
  intro solve sizes steps
  have hu : Unexpired 10 (steps ++ [⟨.calculate 3, 9, {}⟩]) := by
    simp [Unexpired, steps]
  have hrecord : ∀ capacity, record ((start sizes capacity 10).history solve steps) = [2, 3] := by
    intro capacity
    have hf := faithful_start solve sizes capacity 10
    have hsizes := (hf.step_direct (.calculate 3) 0).2
    have hfirst := (hf.settles ⟨.calculate 3, 0, {}⟩ rfl hthree).settled
    have hsecond := ((hf.step ⟨.calculate 3, 0, {}⟩).settles ⟨.calculate 2, 4, {}⟩ rfl
      ((congrArg (directAnswer? solve · (.calculate 2)) hsizes).trans htwo)).settled
    show record (([] ++ [_]) ++ [_]) = [2, 3]
    rw [record_of_settled hsecond, record_of_settled hfirst]; rfl
  refine ⟨by decide, hu, ?_, ?_⟩
  · rw [served_iff solve sizes 2 10 steps 9 {} (by decide) hu, reusable_iff, hrecord]
    decide
  · rw [served_iff solve sizes 1 10 steps 9 {} (by decide) hu, reusable_iff, hrecord]
    decide

end Calculator
end PackPlan
