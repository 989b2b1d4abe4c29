import PackPlan.Proofs.Cache.Run

/-!
# PackPlan.Proofs.Cache.Inclusion

Two caches of different capacity that are given the same commands. What the smaller one holds the
larger one holds too, in the same order and of the same time, so a larger cache never loses a hit
(`includes_after`).

The two make room at different moments, and a lookup may find and move an entry in the larger one
alone. What carries the induction is that the larger one always has at least as much room left
(`Within.room`): when it drops its last entry the smaller one is full as well, and its last entry is
that one or comes before it.
-/

namespace PackPlan
namespace Recency

/-- The small list is part of the large one, and has no more room left. -/
structure Within (small large : Recency) : Prop where
  held : small.held.Sublist large.held
  timeToLive_eq : small.timeToLive = large.timeToLive
  capacity_le : small.capacity ≤ large.capacity
  room : small.capacity + large.held.length ≤ large.capacity + small.held.length
  hits_le : small.counters.hits ≤ large.counters.hits

theorem dropLast_sublist_dropLast {xs ys : List Held} (h : xs.Sublist ys) :
    xs.dropLast.Sublist ys.dropLast := by
  rw [← List.reverse_sublist, ← List.tail_reverse, ← List.tail_reverse]
  exact h.reverse.tail

theorem hits_set (r : Recency) (quantity : Int) (shipment : Shipment) (now : Nat) :
    (r.set quantity shipment now).counters.hits = r.counters.hits := by
  unfold set
  split
  · rfl
  · split <;> rfl

section Within

variable {small large : Recency} {quantity : Int} {x : Held}

theorem Within.find? (h : Within small large) (hs : small.Tidy) (hl : large.Tidy)
    (hf : small.find? quantity = some x) : large.find? quantity = some x := by
  rw [hs.find?_eq_some] at hf
  exact hl.find?_eq_some.2 ⟨h.held.subset hf.1, hf.2⟩

theorem Within.isExpired_eq (h : Within small large) (now : Nat) :
    large.isExpired now = small.isExpired now := by
  funext x
  rw [isExpired, isExpired, h.timeToLive_eq]

theorem Within.others (h : Within small large) (quantity : Int) :
    (small.others quantity).Sublist (large.others quantity) := h.held.filter _

/-- What the small list finds the large one finds. -/
theorem Within.get (h : Within small large) (hs : small.Tidy) (hl : large.Tidy) (quantity : Int)
    (now : Nat) :
    Within (small.get quantity now).2 (large.get quantity now).2 ∧
      ∀ shipment, (small.get quantity now).1 = some shipment →
        (large.get quantity now).1 = some shipment := by
  have hroom := h.room
  have hhits := h.hits_le
  have hothers := h.others quantity
  cases hfs : small.find? quantity with
  | none =>
    rw [others_of_absent hfs] at hothers
    rw [get_of_absent hfs]
    refine ⟨?_, fun shipment hg => nomatch hg⟩
    cases hfl : large.find? quantity with
    | none =>
      rw [get_of_absent hfl]
      exact ⟨h.held, h.timeToLive_eq, h.capacity_le, hroom, hhits⟩
    | some found =>
      have hlength := hl.length_others hfl
      by_cases hold : large.isExpired now found = true
      · rw [get_of_expired hfl hold]
        refine ⟨hothers, h.timeToLive_eq, h.capacity_le, ?_, hhits⟩
        simp only
        omega
      · rw [get_of_fresh hfl hold]
        refine ⟨hothers.cons _, h.timeToLive_eq, h.capacity_le, ?_, Nat.le_succ_of_le hhits⟩
        simp only [List.length_cons]
        omega
  | some found =>
    have hfl := h.find? hs hl hfs
    have hlength := hl.length_others hfl
    have hlength' := hs.length_others hfs
    have hsame := congrFun (h.isExpired_eq now) found
    by_cases hold : small.isExpired now found = true
    · rw [get_of_expired hfs hold, get_of_expired hfl (hsame.trans hold)]
      refine ⟨⟨hothers, h.timeToLive_eq, h.capacity_le, ?_, hhits⟩, fun _ hg => hg⟩
      simp only
      omega
    · rw [get_of_fresh hfs hold, get_of_fresh hfl (by rwa [hsame])]
      refine ⟨⟨hothers.cons_cons _, h.timeToLive_eq, h.capacity_le, ?_, Nat.succ_le_succ hhits⟩,
        fun _ hg => hg⟩
      simp only [List.length_cons]
      omega

theorem Within.held_set (h : Within small large) (hs : small.Tidy) (hl : large.Tidy)
    (quantity : Int) (shipment : Shipment) (now : Nat) :
    (small.set quantity shipment now).held.Sublist (large.set quantity shipment now).held := by
  have hroom := h.room
  have hcapacity := h.capacity_le
  have hbound := hs.bounded
  by_cases hc : small.capacity = 0
  · rw [set_of_disabled hc, hs.held_eq_nil hc]
    exact List.nil_sublist _
  have hc' : large.capacity ≠ 0 := by omega
  cases hfs : small.find? quantity with
  | some found =>
    rw [set_of_held hc hfs, set_of_held hc' (h.find? hs hl hfs)]
    exact (h.others quantity).cons_cons _
  | none =>
    have hkept : (if small.capacity ≤ small.held.length then small.held.dropLast
        else small.held).Sublist small.held := by
      split
      · exact List.dropLast_sublist _
      · exact List.Sublist.refl _
    rw [set_of_new hc hfs]
    cases hfl : large.find? quantity with
    | some found =>
      have hothers := h.others quantity
      rw [others_of_absent hfs] at hothers
      rw [set_of_held hc' hfl]
      exact (hkept.trans hothers).cons_cons _
    | none =>
      rw [set_of_new hc' hfl]
      refine List.Sublist.cons_cons _ ?_
      by_cases hfull : large.capacity ≤ large.held.length
      · -- the large list has no room left, so the small one has none either
        rw [if_pos hfull, if_pos (by omega)]
        exact dropLast_sublist_dropLast h.held
      · rw [if_neg hfull]
        exact hkept.trans h.held

theorem Within.set (h : Within small large) (hs : small.Tidy) (hl : large.Tidy) (quantity : Int)
    (shipment : Shipment) (now : Nat) :
    Within (small.set quantity shipment now) (large.set quantity shipment now) := by
  obtain ⟨hcapacity, httl⟩ := bounds_apply small (.set quantity shipment now)
  obtain ⟨hcapacity', httl'⟩ := bounds_apply large (.set quantity shipment now)
  simp only [apply] at hcapacity httl hcapacity' httl'
  refine ⟨h.held_set hs hl quantity shipment now, ?_, ?_, ?_, ?_⟩
  · rw [httl, httl']
    exact h.timeToLive_eq
  · rw [hcapacity, hcapacity']
    exact h.capacity_le
  · have hroom := h.room
    have hle := h.capacity_le
    have hbound := hl.bounded
    rw [hcapacity, hcapacity', length_set hs, length_set hl]
    cases hfs : small.find? quantity with
    | some found =>
      rw [h.find? hs hl hfs]
      exact hroom
    | none =>
      cases hfl : large.find? quantity with
      | none =>
        simp
        omega
      | some found =>
        simp
        omega
  · rw [hits_set, hits_set]
    exact h.hits_le

theorem Within.purge (h : Within small large) (now : Nat) :
    Within (small.purge now).2 (large.purge now).2 := by
  have hdropped := (h.held.filter (small.isExpired now)).length_le
  have hroom := h.room
  rw [small.held.length_eq_length_filter_add (small.isExpired now),
    large.held.length_eq_length_filter_add (small.isExpired now)] at hroom
  simp only [Recency.purge, h.isExpired_eq]
  refine ⟨h.held.filter _, h.timeToLive_eq, h.capacity_le, ?_, h.hits_le⟩
  simp only
  omega

theorem Within.apply (h : Within small large) (hs : small.Tidy) (hl : large.Tidy)
    (command : Cache.Command) : Within (small.apply command).2 (large.apply command).2 := by
  cases command with
  | get quantity now => exact (h.get hs hl quantity now).1
  | set quantity shipment now => exact h.set hs hl quantity shipment now
  | purge now => exact h.purge now
  | invalidate =>
    exact ⟨List.Sublist.refl _, h.timeToLive_eq, h.capacity_le, h.capacity_le, h.hits_le⟩

end Within
end Recency

namespace Cache

/-- The large cache holds and finds all that the small one does. -/
structure Includes (large small : Cache) : Prop where
  order : small.recencyOrder.Sublist large.recencyOrder
  entries : ∀ quantity e, small.find? quantity = some e →
    ∃ e', large.find? quantity = some e' ∧ e'.shipment = e.shipment ∧ e'.created = e.created
  found : ∀ quantity now shipment, (small.get quantity now).1 = some shipment →
    (large.get quantity now).1 = some shipment
  hits : small.counters.hits ≤ large.counters.hits

theorem Represents.includes {small large : Cache} {r r' : Recency} (hs : Represents small r)
    (hl : Represents large r') (h : Recency.Within r r') : Includes large small where
  order := by
    rw [hs.recencyOrder_eq, hl.recencyOrder_eq]
    exact h.held.map _
  entries := by
    intro quantity e he
    have hfind : r.find? quantity = some e.toHeld := by rw [← hs.map_find?, he]; rfl
    have hfind' := h.find? hs.tidy hl.tidy hfind
    rw [← hl.map_find?] at hfind'
    obtain ⟨e', he', heq⟩ := Option.map_eq_some_iff.1 hfind'
    obtain ⟨-, hshipment, hcreated⟩ := Held.mk.inj heq
    exact ⟨e', he', hshipment, hcreated⟩
  found := by
    intro quantity now shipment hg
    rw [(hs.get quantity now).1] at hg
    rw [(hl.get quantity now).1]
    exact (h.get hs.tidy hl.tidy quantity now).2 shipment hg
  hits := by
    rw [hs.counters_eq, hl.counters_eq]
    exact h.hits_le

theorem within_after {small large : Nat} (hle : small ≤ large) (timeToLive : Nat)
    (commands : List Command) :
    Recency.Within ((Recency.empty small timeToLive).after commands)
      ((Recency.empty large timeToLive).after commands) := by
  induction commands using List.reverseRecOn with
  | nil => exact ⟨List.Sublist.refl _, rfl, hle, hle, Nat.le_refl 0⟩
  | append_singleton commands command ih =>
    rw [Recency.after_concat, Recency.after_concat]
    exact ih.apply (represents_after small timeToLive commands).tidy
      (represents_after large timeToLive commands).tidy command

/-- **A larger cache never loses a hit.** After the same commands, whatever their times, it holds all
that the smaller one holds, in the same order, and finds whatever the smaller one finds. -/
theorem includes_after {small large : Nat} (hle : small ≤ large) (timeToLive : Nat)
    (commands : List Command) :
    Includes ((empty large timeToLive).after commands) ((empty small timeToLive).after commands) :=
  (represents_after small timeToLive commands).includes
    (represents_after large timeToLive commands) (within_after hle timeToLive commands)

/-- A quantity that went to make room in the small cache is found in the large one. -/
theorem includes_after_eviction :
    let commands : List Command := [.set 1 ⟨1, 1, []⟩ 0, .set 2 ⟨2, 2, []⟩ 1, .get 1 3,
      .set 3 ⟨3, 3, []⟩ 4]
    1 ≤ 2 ∧ Includes ((empty 2 10).after commands) ((empty 1 10).after commands) ∧
      ((empty 1 10).after commands).recencyOrder = [3] ∧
      ((empty 2 10).after commands).recencyOrder = [3, 1] := by
  intro commands
  refine ⟨by decide, includes_after (by decide) 10 commands, ?_, ?_⟩
  · rw [(represents_after 1 10 commands).recencyOrder_eq]; rfl
  · rw [(represents_after 2 10 commands).recencyOrder_eq]; rfl

end Cache
end PackPlan
