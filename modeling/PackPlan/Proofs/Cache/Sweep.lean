import PackPlan.Proofs.Cache.Retention

/-!
# PackPlan.Proofs.Cache.Sweep

A sweep does not show to those who look things up later. Two caches run side by side, one of which was
swept first: as long as the other never has to make room, they give the same answers, and the swept one
lacks only entries that were too old at the time of the sweep (`sweep_invisible`).

The lists behind the two hold different entries, so a set may replace in one what it adds to the other,
and a lookup may drop from one what the other does not have. `Thinned` is what stays: what the thin
list lacks had reached the time to live at the sweep. Later times only make it older, so no lookup
finds it, and a set of its quantity puts the same entry in front of both.
-/

namespace PackPlan
namespace Cache

/-- The command comes at this time or later. -/
def Command.NotBefore (time : Nat) : Command → Prop
  | .get _ now => time ≤ now
  | .set _ _ now => time ≤ now
  | .purge now => time ≤ now
  | .invalidate => True

instance (time : Nat) : DecidablePred (Command.NotBefore time)
  | .get .. => inferInstanceAs (Decidable (_ ≤ _))
  | .set .. => inferInstanceAs (Decidable (_ ≤ _))
  | .purge _ => inferInstanceAs (Decidable (_ ≤ _))
  | .invalidate => inferInstanceAs (Decidable True)

namespace Turn

/-- The quantities that go to make room. -/
def evicted (t : Turn) : List Int :=
  match t.command with
  | .set quantity shipment now => (t.before.set quantity shipment now).1
  | _ => []

/-- The answer to a lookup. -/
def answer? (t : Turn) : Option (Option Shipment) :=
  match t.reply with
  | .found shipment => some shipment
  | _ => none

end Turn

/-- The answers to the lookups of a run. -/
def answers (c : Cache) (commands : List Command) : List (Option Shipment) :=
  (c.turns commands).filterMap Turn.answer?

end Cache

namespace Recency

/-- The thin list is the full one without some entries that were too old at this time. -/
structure Thinned (time : Nat) (thin full : Recency) : Prop where
  held : thin.held.Sublist full.held
  stale : ∀ h ∈ full.held, h ∉ thin.held → full.isExpired time h = true
  capacity_eq : thin.capacity = full.capacity
  timeToLive_eq : thin.timeToLive = full.timeToLive

section Thinned

variable {time now : Nat} {r thin full : Recency} {quantity : Int} {shipment : Shipment}
  {x : Held} {command : Cache.Command}

/-- What is too old stays too old. -/
theorem isExpired_mono (hle : time ≤ now) (hold : r.isExpired time x = true) :
    r.isExpired now x = true := by
  rw [isExpired_iff] at hold ⊢
  omega

theorem thinned_purge (r : Recency) (time : Nat) : Thinned time (r.purge time).2 r where
  held := List.filter_sublist
  stale := by
    intro x hm hgone
    by_contra hold
    exact hgone (List.mem_filter.2 ⟨hm, by simpa using hold⟩)
  capacity_eq := rfl
  timeToLive_eq := rfl

theorem Thinned.isExpired_eq (h : Thinned time thin full) (now : Nat) :
    thin.isExpired now = full.isExpired now := by
  funext x
  rw [isExpired, isExpired, h.timeToLive_eq]

/-- What is not too old now was not too old at the sweep, so both lists have it. -/
theorem Thinned.mem_of_fresh (h : Thinned time thin full) (hle : time ≤ now) (hm : x ∈ full.held)
    (hfresh : ¬ full.isExpired now x = true) : x ∈ thin.held := by
  by_contra hgone
  exact hfresh (isExpired_mono hle (h.stale x hm hgone))

theorem Thinned.find?_fresh (h : Thinned time thin full) (hs : thin.Tidy) (hl : full.Tidy)
    (hle : time ≤ now) (quantity : Int) :
    (thin.find? quantity).filter (fun x => !thin.isExpired now x) =
      (full.find? quantity).filter fun x => !full.isExpired now x := by
  ext x
  rw [Option.filter_eq_some_iff, Option.filter_eq_some_iff, hs.find?_eq_some, hl.find?_eq_some,
    h.isExpired_eq, Bool.not_eq_true', ← Bool.not_eq_true]
  constructor
  · rintro ⟨⟨hm, hq⟩, hfresh⟩
    exact ⟨⟨h.held.subset hm, hq⟩, hfresh⟩
  · rintro ⟨⟨hm, hq⟩, hfresh⟩
    exact ⟨⟨h.mem_of_fresh hle hm hfresh, hq⟩, hfresh⟩

theorem Thinned.get_fst (h : Thinned time thin full) (hs : thin.Tidy) (hl : full.Tidy)
    (hle : time ≤ now) (quantity : Int) :
    (thin.get quantity now).1 = (full.get quantity now).1 := by
  rw [Recency.get_fst, Recency.get_fst, h.find?_fresh hs hl hle]

/-! ## Room -/

theorem evicted_eq_nil_iff (ht : r.Tidy) :
    r.evicted quantity = [] ↔
      r.capacity = 0 ∨ quantity ∈ r.order ∨ r.held.length < r.capacity := by
  rw [order, ← ht.find?_isSome, evicted]
  split
  · rename_i hroom
    exact iff_of_true rfl hroom
  · rename_i hroom
    refine iff_of_false ?_ hroom
    cases hlast : r.held.getLast? with
    | none =>
      -- a list without a last entry is full only if nothing may be held
      rw [List.getLast?_eq_none_iff.1 hlast, List.length_nil, not_or, not_or] at hroom
      omega
    | some last => simp

theorem Thinned.length_lt (h : Thinned time thin full) (hm : quantity ∈ full.order)
    (hgone : quantity ∉ thin.order) : thin.held.length < full.held.length := by
  refine Nat.lt_of_le_of_ne h.held.length_le fun hlength => hgone ?_
  rw [order, h.held.eq_of_length hlength]
  exact hm

/-- Where the full list need not make room, the thin one need not either: it is shorter if it lacks
the quantity that is stored. -/
theorem Thinned.evictedBy_eq_nil (h : Thinned time thin full) (hs : thin.Tidy) (hl : full.Tidy)
    (hroom : full.evictedBy command = []) : thin.evictedBy command = [] := by
  cases command with
  | set quantity shipment now =>
    have hlength := h.held.length_le
    have hbound := hl.bounded
    simp only [evictedBy] at hroom ⊢
    rw [evicted_eq_nil_iff hl] at hroom
    rw [evicted_eq_nil_iff hs, h.capacity_eq]
    by_cases hm : quantity ∈ thin.order
    · exact .inr (.inl hm)
    · rcases hroom with hnone | hheld | hspare
      · exact .inl hnone
      · have hshorter := h.length_lt hheld hm
        exact .inr (.inr (by omega))
      · exact .inr (.inr (by omega))
  | get _ _ => rfl
  | purge _ => rfl
  | invalidate => rfl

/-! ## Commands -/

theorem held_set_of_room (ht : r.Tidy) (hc : r.capacity ≠ 0) (hroom : r.evicted quantity = []) :
    (r.set quantity shipment now).held = ⟨quantity, shipment, now⟩ :: r.others quantity := by
  rw [held_set ht hc, hroom, others]
  congr 1
  exact List.filter_congr fun x _ => by simp [bne, beq_eq_decide]

theorem Thinned.held_apply (h : Thinned time thin full) (hs : thin.Tidy) (hl : full.Tidy)
    (hnow : command.NotBefore time) (hroom : full.evictedBy command = []) :
    (thin.apply command).2.held.Sublist (full.apply command).2.held := by
  cases command with
  | get quantity now =>
    simp only [apply, held_get, h.find?_fresh hs hl hnow]
    exact (List.Sublist.refl _).append (h.held.filter _)
  | set quantity shipment now =>
    simp only [apply]
    by_cases hc : full.capacity = 0
    · rw [set_of_disabled hc, set_of_disabled (h.capacity_eq.trans hc)]
      exact h.held
    · rw [held_set_of_room hl hc hroom,
        held_set_of_room hs (by rwa [h.capacity_eq]) (h.evictedBy_eq_nil hs hl hroom)]
      exact (h.held.filter _).cons_cons _
  | purge now =>
    simp only [apply, Recency.purge, h.isExpired_eq]
    exact h.held.filter _
  | invalidate => exact List.Sublist.refl _

theorem Thinned.apply (h : Thinned time thin full) (hs : thin.Tidy) (hl : full.Tidy)
    (hnow : command.NotBefore time) (hroom : full.evictedBy command = []) :
    Thinned time (thin.apply command).2 (full.apply command).2 := by
  obtain ⟨hcapacity, httl⟩ := bounds_apply thin command
  obtain ⟨hcapacity', httl'⟩ := bounds_apply full command
  refine ⟨h.held_apply hs hl hnow hroom, ?_, ?_, ?_⟩
  · intro x hm hgone
    rw [mem_apply hl, hroom] at hm
    rw [mem_apply hs, h.evictedBy_eq_nil hs hl hroom, h.capacity_eq, h.timeToLive_eq] at hgone
    -- what is left out now was left out before
    have hold := h.stale x
    rw [isExpired_iff] at hold ⊢
    rw [httl']
    tauto
  · rw [hcapacity, hcapacity', h.capacity_eq]
  · rw [httl, httl', h.timeToLive_eq]

end Thinned
end Recency

namespace Cache

/-- What a sweep does to a cache: it drops the entries that have reached the time to live, gives their
number, and leaves nothing for a second one. -/
structure Sweeps (timeToLive time : Nat) (c : Cache) : Prop where
  kept : (c.purge time).2.chain.map Entry.toHeld =
    (c.chain.filter fun e => time - e.created < timeToLive).map Entry.toHeld
  count : (c.purge time).1 = c.chain.countP fun e => timeToLive ≤ time - e.created
  again : ((c.purge time).2.purge time).1 = 0

/-- The swept cache has the entries of the other one in their order, without some that had reached the
time to live at the sweep. -/
structure Thins (timeToLive time : Nat) (swept c : Cache) : Prop where
  order : swept.recencyOrder.Sublist c.recencyOrder
  entries : (swept.chain.map Entry.toHeld).Sublist (c.chain.map Entry.toHeld)
  stale : ∀ e ∈ c.chain, e.quantity ∉ swept.recencyOrder → timeToLive ≤ time - e.created

section Sweep

variable {c swept : Cache} {r thin full : Recency} {time : Nat}

theorem Represents.sweeps (h : Represents c r) (time : Nat) : Sweeps r.timeToLive time c where
  kept := by
    have hheld : (r.purge time).2.held =
        (c.chain.map Entry.toHeld).filter fun x => !r.isExpired time x := by rw [h.map_chain]; rfl
    rw [(h.purge time).2.map_chain, hheld, List.filter_map]
    congr 1
    refine List.filter_congr fun e _ => ?_
    rw [Function.comp_apply, Recency.isExpired, ← decide_not, decide_eq_decide]
    exact Nat.not_le
  count := by
    rw [(h.purge time).1, Recency.purge, ← List.countP_eq_length_filter, ← h.map_chain,
      List.countP_map]; rfl
  again := by
    rw [((h.purge time).2.purge time).1, Recency.purge, ← List.countP_eq_length_filter,
      List.countP_eq_zero]
    intro x hm
    have hfresh := (List.mem_filter.1 hm).2
    rw [Bool.not_eq_true'] at hfresh
    exact Bool.not_eq_true _ ▸ hfresh

theorem Represents.evicted_turn (h : Represents c r) (command : Command) :
    Turn.evicted ⟨c, command⟩ = r.evictedBy command := by
  cases command with
  | set quantity shipment now => exact h.evicted_eq quantity shipment now
  | get _ _ => rfl
  | purge _ => rfl
  | invalidate => rfl

theorem Represents.thins (hs : Represents swept thin) (hc : Represents c full)
    (h : Recency.Thinned time thin full) : Thins full.timeToLive time swept c where
  order := by
    rw [hs.recencyOrder_eq, hc.recencyOrder_eq]
    exact h.held.map _
  entries := by
    rw [hs.map_chain, hc.map_chain]
    exact h.held
  stale := by
    intro e hm hgone
    rw [hs.recencyOrder_eq] at hgone
    have hfull : e.toHeld ∈ full.held := hc.map_chain ▸ List.mem_map_of_mem hm
    have hthin : e.toHeld ∉ thin.held := fun hm => hgone (List.mem_map_of_mem hm)
    exact Recency.isExpired_iff.1 (h.stale _ hfull hthin)

theorem answers_cons (c : Cache) (command : Command) (rest : List Command) :
    c.answers (command :: rest) =
      (Turn.answer? ⟨c, command⟩).toList ++ (c.apply command).2.answers rest := by
  rw [answers, turns, List.filterMap_cons]
  cases Turn.answer? ⟨c, command⟩ <;> rfl

theorem Represents.answer?_eq (hs : Represents swept thin) (hc : Represents c full)
    (h : Recency.Thinned time thin full) {command : Command} (hnow : command.NotBefore time) :
    Turn.answer? ⟨swept, command⟩ = Turn.answer? ⟨c, command⟩ := by
  cases command with
  | get quantity now =>
    have hfound := h.get_fst hs.tidy hc.tidy hnow quantity
    rw [← (hs.get quantity now).1, ← (hc.get quantity now).1] at hfound
    exact congrArg some hfound
  | set _ _ _ => rfl
  | purge _ => rfl
  | invalidate => rfl

/-- By induction on the commands that are still to come. -/
theorem Represents.thinned_after (hs : Represents swept thin) (hc : Represents c full)
    (h : Recency.Thinned time thin full) {later : List Command}
    (hnow : ∀ command ∈ later, command.NotBefore time)
    (hroom : ∀ t ∈ c.turns later, t.evicted = []) :
    Recency.Thinned time (thin.after later) (full.after later) ∧
      swept.answers later = c.answers later := by
  induction later generalizing swept c thin full with
  | nil => exact ⟨h, rfl⟩
  | cons command rest ih =>
    rw [List.forall_mem_cons] at hnow
    rw [turns, List.forall_mem_cons, hc.evicted_turn] at hroom
    obtain ⟨hthinned, hanswers⟩ := ih (hs.apply command).2 (hc.apply command).2
      (h.apply hs.tidy hc.tidy hnow.1 hroom.1) hnow.2 hroom.2
    refine ⟨hthinned, ?_⟩
    rw [answers_cons, answers_cons, hs.answer?_eq hc h hnow.1, hanswers]

/-- **A sweep is invisible to readers.** In every state that a cache gets into, a sweep drops just the
entries that are too old. If the cache that is not swept never makes room afterwards, all later lookups
answer the same with the sweep and without it, and after each command the swept cache lacks only
entries that were too old at the sweep. -/
theorem sweep_invisible (capacity timeToLive : Nat) (commands : List Command) (time : Nat) :
    let c := (empty capacity timeToLive).after commands
    let swept := (c.purge time).2
    Sweeps timeToLive time c ∧
      ∀ later, (∀ command ∈ later, command.NotBefore time) →
        (∀ t ∈ c.turns later, t.evicted = []) →
          swept.answers later = c.answers later ∧
            ∀ earlier, earlier <+: later →
              Thins timeToLive time (swept.after earlier) (c.after earlier) := by
  intro c swept
  have hc := represents_after capacity timeToLive commands
  have hs := (hc.purge time).2
  have hthinned := Recency.thinned_purge ((Recency.empty capacity timeToLive).after commands) time
  have httl : ∀ commands, ((Recency.empty capacity timeToLive).after commands).timeToLive = timeToLive :=
    fun commands => (Recency.bounds_after _ commands).2
  refine ⟨httl commands ▸ hc.sweeps time, fun later hnow hroom => ⟨?_, ?_⟩⟩
  · exact (hs.thinned_after hc hthinned hnow hroom).2
  · rintro earlier ⟨rest, rfl⟩
    rw [turns_append] at hroom
    have hnow' : ∀ command ∈ earlier, command.NotBefore time :=
      fun command hm => hnow command (List.mem_append_left _ hm)
    have hroom' : ∀ t ∈ c.turns earlier, t.evicted = [] :=
      fun t hm => hroom t (List.mem_append_left _ hm)
    have hthins := (hs.after earlier).thins (hc.after earlier)
      (hs.thinned_after hc hthinned hnow' hroom').1
    rwa [(Recency.bounds_after _ earlier).2, httl] at hthins

/-- After the sweep a lookup drops 2 from one cache alone, and a set replaces 1 in one and adds it to
the other. -/
theorem sweep_invisible_replaced :
    let commands : List Command := [.set 1 ⟨1, 1, []⟩ 0, .set 2 ⟨2, 2, []⟩ 1, .set 3 ⟨3, 3, []⟩ 5]
    let later : List Command := [.get 2 12, .set 1 ⟨1, 4, []⟩ 13, .get 1 15, .get 3 14]
    let c := (empty 3 10).after commands
    let swept := (c.purge 12).2
    (∀ command ∈ later, command.NotBefore 12) ∧ (∀ t ∈ c.turns later, t.evicted = []) ∧
      c.recencyOrder = [3, 2, 1] ∧ swept.recencyOrder = [3] ∧
      swept.answers later = c.answers later ∧
      Thins 10 12 (swept.after [.get 2 12, .set 1 ⟨1, 4, []⟩ 13])
        (c.after [.get 2 12, .set 1 ⟨1, 4, []⟩ 13]) := by
  intro commands later c swept
  have hc : Represents c ((Recency.empty 3 10).after commands) := represents_after 3 10 commands
  have hnow : ∀ command ∈ later, command.NotBefore 12 := by decide
  have hroom : ∀ t ∈ c.turns later, t.evicted = [] := by
    have hfirst := (hc.apply (.get 2 12)).2
    have hsecond := (hfirst.apply (.set 1 ⟨1, 4, []⟩ 13)).2
    have hthird := (hsecond.apply (.get 1 15)).2
    simp only [later, turns, List.forall_mem_cons]
    refine ⟨?_, ?_, ?_, ?_, by simp⟩
    · exact hc.evicted_turn (.get 2 12)
    · exact hfirst.evicted_turn (.set 1 ⟨1, 4, []⟩ 13)
    · exact hsecond.evicted_turn (.get 1 15)
    · exact hthird.evicted_turn (.get 3 14)
  obtain ⟨hanswers, hthins⟩ := (sweep_invisible 3 10 commands 12).2 later hnow hroom
  refine ⟨hnow, hroom, ?_, ?_, hanswers, hthins _ ⟨[.get 1 15, .get 3 14], rfl⟩⟩
  · rw [hc.recencyOrder_eq]; rfl
  · rw [(hc.purge 12).2.recencyOrder_eq]; rfl

end Sweep
end Cache
end PackPlan
