import PackPlan.Proofs.Cache.Run

/-!
# PackPlan.Proofs.Cache.Retention

Which entries a cache keeps. A quantity is touched when it is set and when a lookup finds it. The
invariant says that the order of the entries is the order of their last touches (`Recent`): of two
entries, the one in front was touched after the last touch of the other. Every command keeps it
(`Recent.apply`), because what it leaves in place was in this order before, and what it puts in front
is what it touches (`order_apply`).

So the entry that goes to make room is the one whose last touch is oldest, and enough others were
touched since (`Recent.capacity_le_since`). `set_evicts_oldest` says what a set does after any run,
and how long an entry stays that is not dropped for its age or with all others.
-/

namespace PackPlan
namespace Cache

/-- The quantity that a command touches, given its reply. -/
def Command.touched? : Command → Reply → Option Int
  | .get quantity _, .found (some _) => some quantity
  | .set quantity _ _, _ => some quantity
  | _, _ => none

/-- The quantities touched while commands run, the last one first. -/
def touches (c : Cache) : List Command → List Int
  | [] => []
  | command :: rest =>
    (c.apply command).2.touches rest ++ (command.touched? (c.apply command).1).toList

/-- What was touched after the last touch of a quantity, in a record with the last touch first. -/
def since (quantity : Int) (record : List Int) : List Int := record.takeWhile (· ≠ quantity)

/-- None of the commands drops the entry of a quantity for its age or with all others. -/
def Spares (quantity : Int) (c : Cache) : List Command → Prop
  | [] => True
  | command :: rest =>
    (∀ e, c.find? quantity = some e → ¬ command.Ends quantity e.created c.timeToLive) ∧
      Spares quantity (c.apply command).2 rest

theorem touches_append (c : Cache) (earlier later : List Command) :
    c.touches (earlier ++ later) = (c.after earlier).touches later ++ c.touches earlier := by
  induction earlier generalizing c with
  | nil => exact (List.append_nil _).symm
  | cons command rest ih =>
    rw [List.cons_append, touches, touches, ih, ← List.append_assoc]; rfl

theorem touches_concat (c : Cache) (commands : List Command) (command : Command) :
    c.touches (commands ++ [command]) =
      (command.touched? ((c.after commands).apply command).1).toList ++ c.touches commands := by
  rw [touches_append]; rfl

section Since

variable {quantity other : Int} {record : List Int}

theorem since_cons_of_ne (h : other ≠ quantity) :
    since quantity (other :: record) = other :: since quantity record := by
  rw [since, List.takeWhile_cons_of_pos (by simpa using h)]; rfl

/-- Touches of other quantities come after the last touch of this one. -/
theorem since_append_of_not_mem {later : List Int} (h : quantity ∉ later) :
    since quantity (later ++ record) = later ++ since quantity record := by
  induction later with
  | nil => rfl
  | cons first rest ih =>
    rw [List.mem_cons, not_or] at h
    rw [List.cons_append, since_cons_of_ne (Ne.symm h.1), ih h.2, List.cons_append]

end Since
end Cache

namespace Recency

open Cache (since)

/-- The quantities, most recently used first. -/
def order (r : Recency) : List Int := r.held.map Held.quantity

/-- The order of the entries is the order of their last touches. -/
structure Recent (record : List Int) (r : Recency) : Prop where
  touched : ∀ quantity ∈ r.order, quantity ∈ record
  ordered : r.order.Pairwise fun newer older => newer ∈ since older record

section Order

variable {r : Recency} {record : List Int} {quantity victim : Int}

theorem get_fst (r : Recency) (quantity : Int) (now : Nat) :
    (r.get quantity now).1 =
      ((r.find? quantity).filter fun h => !r.isExpired now h).map Held.shipment := by
  unfold get
  cases r.find? quantity with
  | none => rfl
  | some found =>
    by_cases hold : r.isExpired now found = true
    · simp [hold]
    · simp [Option.filter_some, hold]

/-- A command puts what it touches in front, and leaves some of the others as they were. -/
theorem order_apply (ht : r.Tidy) (hc : r.capacity ≠ 0) (command : Cache.Command) :
    ∃ kept, kept.Sublist r.order ∧
      (r.apply command).2.order = (command.touched? (r.apply command).1).toList ++ kept ∧
      ∀ quantity, command.touched? (r.apply command).1 = some quantity → quantity ∉ kept := by
  cases command with
  | get quantity now =>
    refine ⟨(r.others quantity).map Held.quantity, List.filter_sublist.map _, ?_, ?_⟩
    · simp only [apply, order, held_get, get_fst]
      cases hf : (r.find? quantity).filter fun h => !r.isExpired now h with
      | none => rfl
      | some found =>
        obtain ⟨hfound, -⟩ := Option.filter_eq_some_iff.1 hf
        have hq := (mem_of_find? hfound).2
        simp [Cache.Command.touched?, hq]
    · intro touched htouched hm
      have heq : quantity = touched := by
        simp only [apply] at htouched
        cases hg : (r.get quantity now).1 with
        | none => rw [hg] at htouched; cases htouched
        | some shipment => rw [hg] at htouched; cases htouched; rfl
      obtain ⟨h, hh, rfl⟩ := List.mem_map.1 hm
      exact (mem_others.1 hh).2 heq.symm
  | set quantity shipment now =>
    refine ⟨(r.held.filter fun h => h.quantity ≠ quantity ∧ h.quantity ∉ r.evicted quantity).map
      Held.quantity, List.filter_sublist.map _, ?_, ?_⟩
    · simp only [apply, order, held_set ht hc, List.map_cons]; rfl
    · intro touched htouched hm
      cases htouched
      obtain ⟨h, hh, rfl⟩ := List.mem_map.1 hm
      simpa using (List.mem_filter.1 hh).2
  | purge now =>
    refine ⟨(r.purge now).2.order, List.filter_sublist.map _, rfl, ?_⟩
    intro touched htouched
    cases htouched
  | invalidate =>
    refine ⟨[], List.nil_sublist _, rfl, ?_⟩
    intro touched htouched
    cases htouched

/-- What a command touches is there afterwards. -/
theorem mem_order_of_touched (ht : r.Tidy) (hc : r.capacity ≠ 0) {command : Cache.Command}
    (htouched : command.touched? (r.apply command).1 = some quantity) :
    quantity ∈ (r.apply command).2.order := by
  obtain ⟨kept, -, horder, -⟩ := order_apply ht hc command
  rw [horder, htouched]
  exact List.mem_cons_self ..

/-- One command keeps the order of last touches. -/
theorem Recent.apply (h : Recent record r) (ht : r.Tidy) (hc : r.capacity ≠ 0)
    (command : Cache.Command) :
    Recent ((command.touched? (r.apply command).1).toList ++ record) (r.apply command).2 := by
  obtain ⟨kept, hsub, horder, hfresh⟩ := order_apply ht hc command
  have hkept : kept.Pairwise fun newer older => newer ∈ since older record := h.ordered.sublist hsub
  have hmem : ∀ quantity ∈ kept, quantity ∈ record := fun quantity hm =>
    h.touched quantity (hsub.subset hm)
  cases htouched : command.touched? (r.apply command).1 with
  | none =>
    rw [htouched] at horder
    exact ⟨by rw [horder]; exact hmem, by rw [horder]; exact hkept⟩
  | some touched =>
    have hnew := hfresh touched htouched
    rw [htouched] at horder
    -- the touch comes after the last touches of all that is kept
    have hsince : ∀ older ∈ kept, since older (touched :: record) = touched :: since older record := by
      intro older ho
      refine Cache.since_cons_of_ne ?_
      rintro rfl; exact hnew ho
    constructor
    · rw [horder]
      intro quantity hm
      rcases List.mem_cons.1 hm with rfl | hm
      · exact List.mem_cons_self ..
      · exact List.mem_cons_of_mem _ (hmem quantity hm)
    · rw [horder]
      refine List.pairwise_cons.2 ⟨fun older ho => ?_, hkept.imp_of_mem fun _ ho hn => ?_⟩
      · rw [Option.toList_some, List.singleton_append, hsince older ho]
        exact List.mem_cons_self ..
      · rw [Option.toList_some, List.singleton_append, hsince _ ho]
        exact List.mem_cons_of_mem _ hn

/-! ## Making room -/

/-- Something goes only from a full list, for a new quantity, and it is the last one. -/
theorem mem_evicted (ht : r.Tidy) (hv : victim ∈ r.evicted quantity) :
    r.held.length = r.capacity ∧ quantity ∉ r.order ∧ r.evicted quantity = [victim] ∧
      ∃ front, r.order = front ++ [victim] := by
  have hbound := ht.bounded
  unfold evicted at hv ⊢
  split at hv
  · cases hv
  · rename_i hroom
    rw [not_or, not_or] at hroom
    obtain ⟨hc, hnew, hfull⟩ := hroom
    rw [ht.find?_isSome] at hnew
    rw [Option.mem_toList, Option.map_eq_some_iff] at hv
    obtain ⟨last, hlast, rfl⟩ := hv
    obtain ⟨front, hheld⟩ := List.getLast?_eq_some_iff.1 hlast
    refine ⟨by omega, hnew, ?_, front.map Held.quantity, ?_⟩
    · rw [if_neg (by rw [not_or, not_or, ht.find?_isSome]; exact ⟨hc, hnew, hfull⟩), hlast]; rfl
    · rw [order, hheld, List.map_append]; rfl

theorem length_evicted_le (r : Recency) (quantity : Int) : (r.evicted quantity).length ≤ 1 := by
  unfold evicted
  split
  · exact Nat.zero_le 1
  · cases r.held.getLast? with
    | none => exact Nat.zero_le 1
    | some last => exact Nat.le_refl 1

/-- The counter goes up by what goes. -/
theorem evictions_set (r : Recency) (quantity : Int) (shipment : Shipment) (now : Nat) :
    (r.set quantity shipment now).counters.evictions =
      r.counters.evictions + (r.evicted quantity).length := by
  unfold set evicted
  by_cases hc : r.capacity = 0
  · simp [hc]
  · cases hf : r.find? quantity with
    | some found => simp [hc]
    | none =>
      by_cases hfull : r.capacity ≤ r.held.length
      · cases hlast : r.held.getLast? with
        | none =>
          rw [List.getLast?_eq_none_iff.1 hlast] at hfull
          exact absurd (Nat.le_zero.1 hfull) hc
        | some last => simp [hc, hfull, Nat.not_lt.2 hfull]
      · simp [hc, hfull, Nat.lt_of_not_le hfull]

/-- The last touch of the last entry is the oldest. -/
theorem Recent.oldest (h : Recent record r) {front : List Int} (ho : r.order = front ++ [victim])
    {other : Int} (hm : other ∈ front) : other ∈ since victim record := by
  have hordered := h.ordered
  rw [ho] at hordered
  exact (List.pairwise_append.1 hordered).2.2 other hm victim (List.mem_singleton_self _)

/-- All that stays, and what is stored, was touched after the last touch of what goes. -/
theorem Recent.capacity_le_since (h : Recent record r) (ht : r.Tidy)
    (hv : victim ∈ r.evicted quantity) :
    r.capacity ≤ (since victim (quantity :: record)).toFinset.card := by
  obtain ⟨hfull, hnew, -, front, ho⟩ := mem_evicted ht hv
  have hvictim : victim ∈ r.order := by rw [ho]; simp
  have hne : quantity ≠ victim := by rintro rfl; exact hnew hvictim
  have hnodup : (quantity :: front).Nodup := by
    have horder : r.order.Nodup := ht.nodup
    rw [ho] at horder hnew
    refine List.nodup_cons.2 ⟨fun hm => hnew (List.mem_append_left _ hm), ?_⟩
    exact (List.nodup_append.1 horder).1
  have hsubset : (quantity :: front).toFinset ⊆ (since victim (quantity :: record)).toFinset := by
    intro other hm
    rw [List.mem_toFinset] at hm ⊢
    rw [Cache.since_cons_of_ne hne]
    rcases List.mem_cons.1 hm with rfl | hm
    · exact List.mem_cons_self ..
    · exact List.mem_cons_of_mem _ (h.oldest ho hm)
  have hlength : r.capacity = (quantity :: front).length := by
    have horder : r.order.length = r.held.length := List.length_map ..
    rw [← hfull, ← horder, ho, List.length_append, List.length_singleton, List.length_cons]
  rw [hlength, ← List.toFinset_card_of_nodup hnodup]
  exact Finset.card_le_card hsubset

/-! ## Staying -/

/-- A quantity that is held stays, unless it is dropped for its age, with all others or to make room.
One that went to make room is missing enough touches. -/
theorem Recent.stays (h : Recent record r) (ht : r.Tidy) (hc : r.capacity ≠ 0)
    {command : Cache.Command}
    (hspared : ∀ x ∈ r.held, x.quantity = quantity →
      ¬ command.Ends quantity x.created r.timeToLive)
    (hstay : quantity ∈ r.order ∨ r.capacity ≤ (since quantity record).toFinset.card) :
    quantity ∈ (r.apply command).2.order ∨ r.capacity ≤
      (since quantity ((command.touched? (r.apply command).1).toList ++ record)).toFinset.card := by
  by_cases htouched : command.touched? (r.apply command).1 = some quantity
  · exact .inl (mem_order_of_touched ht hc htouched)
  · have hother : quantity ∉ (command.touched? (r.apply command).1).toList := by
      rwa [Option.mem_toList]
    rcases hstay with hm | hmany
    · obtain ⟨x, hx, rfl⟩ := List.mem_map.1 hm
      by_cases hevicted : x.quantity ∈ r.evictedBy command
      · right
        cases command with
        | set stored shipment now => exact h.capacity_le_since ht hevicted
        | get _ _ => cases hevicted
        | purge _ => cases hevicted
        | invalidate => cases hevicted
      · left
        have hset : ¬ command.Sets x.quantity := by
          intro hs
          cases command with
          | set stored shipment now => exact htouched (congrArg some hs)
          | get _ _ => cases hs
          | purge _ => cases hs
          | invalidate => cases hs
        exact List.mem_map.2 ⟨x, (mem_apply ht command).2
          (.inr ⟨hx, hset, hspared x hx rfl, hevicted⟩), rfl⟩
    · right
      rw [Cache.since_append_of_not_mem hother]
      refine Nat.le_trans hmany (Finset.card_le_card fun other hm => ?_)
      rw [List.mem_toFinset] at hm ⊢
      exact List.mem_append_right _ hm

end Order
end Recency

namespace Cache

/-- A quantity that goes to make room for another, in a cache with this record of touches. -/
structure Eviction (c : Cache) (capacity : Nat) (record : List Int) (quantity victim : Int) :
    Prop where
  full : c.size = capacity
  new : ¬ c.Holds quantity
  held : c.Holds victim
  touched : victim ∈ record
  oldest : ∀ other, c.Holds other → other ≠ victim → other ∈ since victim record
  enough : capacity ≤ (since victim (quantity :: record)).toFinset.card

/-- What storing a quantity does to a cache with this record of touches. -/
structure Stores (c : Cache) (capacity : Nat) (record : List Int) (quantity : Int)
    (dropped : List Int) (next : Cache) : Prop where
  at_most_one : dropped.length ≤ 1
  counted : next.counters.evictions = c.counters.evictions + dropped.length
  holds_iff : ∀ other, next.Holds other ↔ other = quantity ∨ (c.Holds other ∧ other ∉ dropped)
  eviction : ∀ victim ∈ dropped, Eviction c capacity record quantity victim

section Retention

variable {c : Cache} {r : Recency} {record : List Int} {quantity : Int}

theorem Represents.stores (h : Represents c r) (hr : r.Recent record) (hc : r.capacity ≠ 0)
    (quantity : Int) (shipment : Shipment) (now : Nat) :
    Stores c r.capacity record quantity (c.set quantity shipment now).1
      (c.set quantity shipment now).2 := by
  have ht := h.tidy
  have hnext := h.set quantity shipment now
  rw [h.evicted_eq quantity shipment now]
  refine ⟨Recency.length_evicted_le r quantity, ?_, ?_, ?_⟩
  · rw [hnext.counters_eq, h.counters_eq, Recency.evictions_set]
  · intro other
    rw [hnext.holds_iff, h.holds_iff, List.mem_map, List.mem_map]
    simp only [Recency.mem_set ht]
    constructor
    · rintro ⟨x, ⟨-, rfl⟩ | ⟨hm, -, hkept⟩, rfl⟩
      · exact .inl rfl
      · exact .inr ⟨⟨x, hm, rfl⟩, hkept⟩
    · rintro (rfl | ⟨⟨x, hm, rfl⟩, hkept⟩)
      · exact ⟨_, .inl ⟨hc, rfl⟩, rfl⟩
      · by_cases hq : x.quantity = quantity
        · exact ⟨⟨quantity, shipment, now⟩, .inl ⟨hc, rfl⟩, hq.symm⟩
        · exact ⟨x, .inr ⟨hm, hq, hkept⟩, rfl⟩
  · intro victim hv
    obtain ⟨hfull, hnew, -, front, ho⟩ := Recency.mem_evicted ht hv
    have hvictim : victim ∈ r.order := by rw [ho]; simp
    refine ⟨h.size_eq.trans hfull, fun hq => hnew (h.holds_iff.1 hq), h.holds_iff.2 hvictim,
      hr.touched victim hvictim, fun other hm hne => ?_, hr.capacity_le_since ht hv⟩
    have hother : other ∈ r.order := h.holds_iff.1 hm
    rw [ho, List.mem_append, List.mem_singleton] at hother
    exact hr.oldest ho (hother.resolve_right hne)

/-- By induction on the run, from its end: the record grows by what each command touches. -/
theorem recent_after (capacity timeToLive : Nat) (hc : 0 < capacity) (commands : List Command) :
    Recency.Recent ((empty capacity timeToLive).touches commands)
      ((Recency.empty capacity timeToLive).after commands) := by
  induction commands using List.reverseRecOn with
  | nil => exact ⟨fun _ hm => (List.not_mem_nil hm).elim, List.Pairwise.nil⟩
  | append_singleton commands command ih =>
    have hr := represents_after capacity timeToLive commands
    have hcapacity : ((Recency.empty capacity timeToLive).after commands).capacity ≠ 0 := by
      rw [(Recency.bounds_after _ _).1]
      exact Nat.pos_iff_ne_zero.1 hc
    rw [touches_concat, Recency.after_concat, (hr.apply command).1]
    exact ih.apply hr.tidy hcapacity command

/-- By induction on the commands that are still to come. -/
theorem Represents.stays (h : Represents c r) (hr : r.Recent record) (hc : r.capacity ≠ 0)
    (later : List Command) (hspared : c.Spares quantity later)
    (hstay : quantity ∈ r.order ∨ r.capacity ≤ (since quantity record).toFinset.card) :
    (c.after later).Holds quantity ∨
      r.capacity ≤ (since quantity (c.touches later ++ record)).toFinset.card := by
  induction later generalizing c r record with
  | nil => exact hstay.imp h.holds_iff.2 id
  | cons command rest ih =>
    obtain ⟨hfirst, hrest⟩ := hspared
    obtain ⟨hreply, hnext⟩ := h.apply command
    have hc' : (r.apply command).2.capacity ≠ 0 := by rwa [(Recency.bounds_apply r command).1]
    have hspared : ∀ x ∈ r.held, x.quantity = quantity →
        ¬ command.Ends quantity x.created r.timeToLive := by
      intro x hm hq
      have hfound := h.map_find? quantity
      rw [(h.tidy.find?_eq_some).2 ⟨hm, hq⟩] at hfound
      obtain ⟨e, he, rfl⟩ := Option.map_eq_some_iff.1 hfound
      rw [← h.timeToLive_eq]
      exact hfirst e he
    have hnow := hr.stays h.tidy hc hspared hstay
    rw [← (Recency.bounds_apply r command).1] at hnow
    have hlater := ih hnext (hr.apply h.tidy hc command) hc' hrest hnow
    rwa [(Recency.bounds_apply r command).1, ← List.append_assoc, ← hreply] at hlater

/-- **The least recently touched entry goes first.** After any run, a set drops at most one quantity,
and only from a full cache for a quantity that is not there: the held quantity whose last touch is the
oldest, since which at least as many others were touched as the cache may hold. So a quantity stays
that is not dropped for its age or with all others, as long as fewer were touched since. -/
theorem set_evicts_oldest {capacity : Nat} (hc : 0 < capacity) (timeToLive : Nat)
    (commands : List Command) :
    (∀ quantity shipment now,
      Stores ((empty capacity timeToLive).after commands) capacity
        ((empty capacity timeToLive).touches commands) quantity
        (((empty capacity timeToLive).after commands).set quantity shipment now).1
        (((empty capacity timeToLive).after commands).set quantity shipment now).2) ∧
    ∀ quantity later, ((empty capacity timeToLive).after commands).Holds quantity →
      ((empty capacity timeToLive).after commands).Spares quantity later →
      (since quantity
        ((empty capacity timeToLive).touches (commands ++ later))).toFinset.card < capacity →
      ((empty capacity timeToLive).after (commands ++ later)).Holds quantity := by
  have h := represents_after capacity timeToLive commands
  have hr := recent_after capacity timeToLive hc commands
  have hcapacity : ((Recency.empty capacity timeToLive).after commands).capacity = capacity :=
    (Recency.bounds_after _ commands).1
  have hc' : ((Recency.empty capacity timeToLive).after commands).capacity ≠ 0 := by omega
  constructor
  · intro quantity shipment now
    have hstores := h.stores hr hc' quantity shipment now
    rwa [hcapacity] at hstores
  · intro quantity later hheld hspared hfew
    rw [touches_append] at hfew
    rw [after_append]
    refine (h.stays hr hc' later hspared (.inl (h.holds_iff.1 hheld))).resolve_right ?_
    omega

/-- The quantity that was looked up stays, and the one that was stored after it goes. -/
theorem set_evicts_oldest_unused :
    let commands : List Command := [.set 1 ⟨1, 1, []⟩ 0, .set 2 ⟨2, 2, []⟩ 1, .get 1 2]
    let later : List Command := [.set 3 ⟨3, 3, []⟩ 5, .purge 6]
    let c := (empty 2 10).after commands
    0 < 2 ∧ (c.set 3 ⟨3, 3, []⟩ 5).1 = [2] ∧
      Eviction c 2 ((empty 2 10).touches commands) 3 2 ∧
      c.Holds 1 ∧ c.Spares 1 later ∧
      (since 1 ((empty 2 10).touches (commands ++ later))).toFinset.card < 2 ∧
      ((empty 2 10).after (commands ++ later)).Holds 1 := by
  intro commands later c
  obtain ⟨hstores, hstays⟩ := @set_evicts_oldest 2 (by decide) 10 commands
  have hr : Represents c ((Recency.empty 2 10).after commands) := represents_after 2 10 commands
  have hdropped : (c.set 3 ⟨3, 3, []⟩ 5).1 = [2] := by
    rw [hr.evicted_eq]; rfl
  have hheld : c.Holds 1 := hr.holds_iff.2 (by decide)
  have hspared : c.Spares 1 later := by
    have httl : (c.apply (.set 3 ⟨3, 3, []⟩ 5)).2.timeToLive = 10 :=
      (hr.apply (.set 3 ⟨3, 3, []⟩ 5)).2.timeToLive_eq
    refine ⟨fun e _ => id, fun e _ hold => ?_, trivial⟩
    rw [httl, Command.Ends] at hold
    omega
  have hhit : ((((empty 2 10).apply (.set 1 ⟨1, 1, []⟩ 0)).2.apply (.set 2 ⟨2, 2, []⟩ 1)).2.apply
      (.get 1 2)).1 = .found (some ⟨1, 1, []⟩) :=
    ((represents_after 2 10 [.set 1 ⟨1, 1, []⟩ 0, .set 2 ⟨2, 2, []⟩ 1]).apply (.get 1 2)).1.trans rfl
  have htouches : (empty 2 10).touches (commands ++ later) = [3, 1, 2, 1] := by
    simp only [commands, later, List.cons_append, List.nil_append, touches, hhit]; rfl
  have hfew : (since 1 ((empty 2 10).touches (commands ++ later))).toFinset.card < 2 := by
    rw [htouches]; decide
  exact ⟨by decide, hdropped, (hstores 3 ⟨3, 3, []⟩ 5).eviction 2 (by rw [hdropped]; simp), hheld,
    hspared, hfew, hstays 1 later hheld hspared hfew⟩

end Retention
end Cache
end PackPlan
