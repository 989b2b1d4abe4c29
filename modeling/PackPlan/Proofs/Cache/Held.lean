import PackPlan.Proofs.Cache.Refinement

/-!
# PackPlan.Proofs.Cache.Held

What each command leaves in the list that a cache behaves like. `mem_apply` gathers it in one
statement: an entry is there after a command exactly if the command stored it, or if it was there
before and the command neither stored its quantity anew, nor found it too old, nor dropped everything,
nor took it out to make room. Later proofs about runs split into these cases and do not open an
operation.

The lists that arise hold no quantity twice and no more entries than they may (`Recency.Tidy`), because
the caches behind them are in order (`Represents.tidy`).
-/

namespace PackPlan
namespace Cache

namespace Command

/-- The command stores a shipment for the quantity. -/
def Sets (quantity : Int) : Command → Prop
  | .set other _ _ => other = quantity
  | _ => False

/-- The command drops an entry of this quantity and time, because it is too old or with all others. -/
def Ends (quantity : Int) (created timeToLive : Nat) : Command → Prop
  | .get other now => other = quantity ∧ timeToLive ≤ now - created
  | .set .. => False
  | .purge now => timeToLive ≤ now - created
  | .invalidate => True

instance (quantity : Int) : DecidablePred (Sets quantity)
  | .get .. => inferInstanceAs (Decidable False)
  | .set other .. => inferInstanceAs (Decidable (other = quantity))
  | .purge _ => inferInstanceAs (Decidable False)
  | .invalidate => inferInstanceAs (Decidable False)

instance (quantity : Int) (created timeToLive : Nat) : DecidablePred (Ends quantity created timeToLive)
  | .get .. => inferInstanceAs (Decidable (_ ∧ _))
  | .set .. => inferInstanceAs (Decidable False)
  | .purge _ => inferInstanceAs (Decidable (_ ≤ _))
  | .invalidate => inferInstanceAs (Decidable True)

end Command
end Cache

namespace Recency

/-- No quantity is held twice, and no more are held than may be. -/
structure Tidy (r : Recency) : Prop where
  nodup : (r.held.map Held.quantity).Nodup
  bounded : r.held.length ≤ r.capacity

/-- The quantities that go when this one is stored: the last one, if it makes room for a new one. -/
def evicted (r : Recency) (quantity : Int) : List Int :=
  if r.capacity = 0 ∨ (r.find? quantity).isSome ∨ r.held.length < r.capacity then []
  else (r.held.getLast?.map Held.quantity).toList

/-- The quantities that go to make room when a command runs. -/
def evictedBy (r : Recency) : Cache.Command → List Int
  | .set quantity _ _ => r.evicted quantity
  | _ => []

section Members

variable {r : Recency} {quantity : Int} {shipment : Shipment} {now : Nat} {h : Held}

theorem mem_of_find? (hf : r.find? quantity = some h) : h ∈ r.held ∧ h.quantity = quantity := by
  refine ⟨List.mem_of_find?_eq_some hf, ?_⟩
  have hq := List.find?_some hf
  simpa using hq

theorem mem_others : h ∈ r.others quantity ↔ h ∈ r.held ∧ h.quantity ≠ quantity := by
  simp [others, List.mem_filter]

theorem quantity_ne_of_find? (hf : r.find? quantity = none) (hm : h ∈ r.held) :
    h.quantity ≠ quantity := by
  have hno := List.find?_eq_none.1 hf h hm
  simpa using hno

theorem others_of_absent (hf : r.find? quantity = none) : r.others quantity = r.held := by
  rw [others, List.filter_eq_self]
  intro h hm
  simpa using quantity_ne_of_find? hf hm

theorem Tidy.held_eq_nil (ht : r.Tidy) (hc : r.capacity = 0) : r.held = [] := by
  have hbound := ht.bounded
  exact List.length_eq_zero_iff.1 (by omega)

/-- Two entries of one quantity are one entry. -/
theorem Tidy.eq_of_quantity (ht : r.Tidy) {other : Held} (hm : h ∈ r.held) (ho : other ∈ r.held)
    (hq : h.quantity = other.quantity) : h = other :=
  List.inj_on_of_nodup_map ht.nodup hm ho hq

theorem Tidy.find?_eq_some (ht : r.Tidy) :
    r.find? quantity = some h ↔ h ∈ r.held ∧ h.quantity = quantity := by
  refine ⟨mem_of_find?, fun ⟨hm, hq⟩ => ?_⟩
  cases hf : r.find? quantity with
  | none => exact absurd hq (quantity_ne_of_find? hf hm)
  | some other =>
    obtain ⟨ho, hother⟩ := mem_of_find? hf
    rw [ht.eq_of_quantity ho hm (hother.trans hq.symm)]

theorem Tidy.find?_isSome (ht : r.Tidy) :
    (r.find? quantity).isSome = true ↔ quantity ∈ r.held.map Held.quantity := by
  rw [Option.isSome_iff_exists, List.mem_map]
  exact exists_congr fun h => ht.find?_eq_some

theorem isExpired_iff : r.isExpired now h = true ↔ r.timeToLive ≤ now - h.created := by
  rw [isExpired, decide_eq_true_iff]

/-- A lookup finds what is held and is not too old. -/
theorem exists_of_get (hg : (r.get quantity now).1 = some shipment) :
    ∃ h ∈ r.held, h.quantity = quantity ∧ h.shipment = shipment ∧
      now - h.created < r.timeToLive := by
  unfold get at hg
  split at hg
  · cases hg
  · rename_i h hf
    obtain ⟨hm, hq⟩ := mem_of_find? hf
    split at hg
    · cases hg
    · rename_i hold
      rw [isExpired_iff, Nat.not_le] at hold
      cases hg; exact ⟨h, hm, hq, rfl, hold⟩

/-- A lookup takes its entry out, and puts it in front if it is not too old. -/
theorem held_get :
    (r.get quantity now).2.held =
      ((r.find? quantity).filter fun h => !r.isExpired now h).toList ++ r.others quantity := by
  unfold get
  cases hf : r.find? quantity with
  | none => simp only [Option.filter_none, Option.toList_none, List.nil_append, others_of_absent hf]
  | some found =>
    by_cases hold : r.isExpired now found = true
    · simp [hold]
    · simp [Option.filter_some, hold]

/-- What is stored comes first, before all others but those that go to make room. -/
theorem held_set (ht : r.Tidy) (hc : r.capacity ≠ 0) :
    (r.set quantity shipment now).held =
      ⟨quantity, shipment, now⟩ ::
        r.held.filter fun h => h.quantity ≠ quantity ∧ h.quantity ∉ r.evicted quantity := by
  rw [set, if_neg hc]
  cases hf : r.find? quantity with
  | some found =>
    have hnone : r.evicted quantity = [] := if_pos (.inr (.inl (by rw [hf]; rfl)))
    simp only [hnone, others, List.not_mem_nil, not_false_eq_true, and_true]
    congr 1
    exact List.filter_congr fun x _ => by simp [bne, beq_eq_decide]
  | none =>
    have hnew : ∀ x ∈ r.held, x.quantity ≠ quantity := fun x hx => quantity_ne_of_find? hf hx
    simp only
    congr 1
    by_cases hfull : r.capacity ≤ r.held.length
    · rcases List.eq_nil_or_concat r.held with hnil | ⟨front, last, hheld⟩
      · rw [hnil] at hfull
        exact absurd (Nat.le_zero.1 hfull) hc
      rw [List.concat_eq_append] at hheld
      have hlast : r.evicted quantity = [last.quantity] := by
        have hroom : ¬ (r.capacity = 0 ∨ (r.find? quantity).isSome = true ∨
            r.held.length < r.capacity) := by
          rw [hf]
          simp [hc, hfull]
        rw [evicted, if_neg hroom, hheld, List.getLast?_concat]; rfl
      have hfront : ∀ x ∈ front, x.quantity ≠ last.quantity := by
        have hnodup := ht.nodup
        rw [hheld, List.map_append, List.nodup_append] at hnodup
        intro x hx
        exact hnodup.2.2 x.quantity (List.mem_map_of_mem hx) last.quantity (by simp)
      rw [if_pos hfull, hlast, hheld, List.dropLast_concat, List.filter_append]
      rw [List.filter_eq_self.2 fun x hx => ?_, List.filter_cons_of_neg (by simp)]
      · rw [List.filter_nil, List.append_nil]
      · simpa using ⟨hnew x (by simp [hheld, hx]), hfront x hx⟩
    · have hnone : r.evicted quantity = [] := if_pos (.inr (.inr (by omega)))
      rw [if_neg hfull, hnone, eq_comm, List.filter_eq_self]
      intro x hx
      simpa using hnew x hx

/-- A lookup brings nothing new and drops its entry only if that is too old. -/
theorem mem_get (ht : r.Tidy) :
    h ∈ (r.get quantity now).2.held ↔
      h ∈ r.held ∧ ¬ (quantity = h.quantity ∧ r.timeToLive ≤ now - h.created) := by
  rw [held_get, List.mem_append, Option.mem_toList, Option.filter_eq_some_iff, ht.find?_eq_some,
    mem_others, Bool.not_eq_true', ← Bool.not_eq_true, isExpired_iff]
  by_cases hq : h.quantity = quantity
  · simp [hq]
  · simp [hq, Ne.symm hq]

/-- What is stored is there, and of the others all but those that go to make room. -/
theorem mem_set (ht : r.Tidy) :
    h ∈ (r.set quantity shipment now).held ↔
      (r.capacity ≠ 0 ∧ h = ⟨quantity, shipment, now⟩) ∨
        (h ∈ r.held ∧ h.quantity ≠ quantity ∧ h.quantity ∉ r.evicted quantity) := by
  by_cases hc : r.capacity = 0
  · simp [set, hc, ht.held_eq_nil hc]
  · rw [held_set ht hc]
    simp [hc]

theorem mem_purge :
    h ∈ (r.purge now).2.held ↔ h ∈ r.held ∧ ¬ r.timeToLive ≤ now - h.created := by
  simp [purge, List.mem_filter, isExpired]

/-- What is there after a command, and why. -/
theorem mem_apply (ht : r.Tidy) (command : Cache.Command) :
    h ∈ (r.apply command).2.held ↔
      (r.capacity ≠ 0 ∧ command = .set h.quantity h.shipment h.created) ∨
        (h ∈ r.held ∧ ¬ command.Sets h.quantity ∧
          ¬ command.Ends h.quantity h.created r.timeToLive ∧
          h.quantity ∉ r.evictedBy command) := by
  cases command with
  | get quantity now =>
    simp only [apply, mem_get ht, Cache.Command.Sets, Cache.Command.Ends, evictedBy]
    simp
  | set quantity shipment now =>
    have hsame : h = ⟨quantity, shipment, now⟩ ↔
        Cache.Command.set quantity shipment now = .set h.quantity h.shipment h.created := by
      cases h
      simp only [Held.mk.injEq, Cache.Command.set.injEq]
      exact and_congr eq_comm (and_congr eq_comm eq_comm)
    simp only [apply, mem_set ht, hsame, Cache.Command.Sets, Cache.Command.Ends, evictedBy]
    simp [eq_comm]
  | purge now =>
    simp only [apply, mem_purge, Cache.Command.Sets, Cache.Command.Ends, evictedBy]
    simp
  | invalidate =>
    simp [apply, invalidate, Cache.Command.Ends]

end Members

/-! ## Operations -/

section Operations

variable {r : Recency} {quantity : Int} {shipment : Shipment} {now : Nat} {h : Held}

theorem get_of_absent (hf : r.find? quantity = none) :
    r.get quantity now =
      (none, { r with counters := { r.counters with misses := r.counters.misses + 1 } }) := by
  rw [get, hf]

theorem get_of_expired (hf : r.find? quantity = some h) (hold : r.isExpired now h = true) :
    r.get quantity now = (none, { r with
      held := r.others quantity
      counters := { r.counters with
        expirations := r.counters.expirations + 1
        misses := r.counters.misses + 1 } }) := by
  rw [get, hf]
  exact if_pos hold

theorem get_of_fresh (hf : r.find? quantity = some h) (hold : ¬ r.isExpired now h = true) :
    r.get quantity now = (some h.shipment, { r with
      held := h :: r.others quantity
      counters := { r.counters with hits := r.counters.hits + 1 } }) := by
  rw [get, hf]
  exact if_neg hold

theorem set_of_disabled (hc : r.capacity = 0) : r.set quantity shipment now = r := if_pos hc

theorem set_of_held (hc : r.capacity ≠ 0) (hf : r.find? quantity = some h) :
    r.set quantity shipment now = { r with
      held := ⟨quantity, shipment, now⟩ :: r.others quantity
      counters := { r.counters with updates := r.counters.updates + 1 } } := by
  rw [set, if_neg hc, hf]

theorem set_of_new (hc : r.capacity ≠ 0) (hf : r.find? quantity = none) :
    r.set quantity shipment now = { r with
      held := ⟨quantity, shipment, now⟩ ::
        if r.capacity ≤ r.held.length then r.held.dropLast else r.held
      counters := { r.counters with
        insertions := r.counters.insertions + 1
        evictions := r.counters.evictions + if r.capacity ≤ r.held.length then 1 else 0 } } := by
  rw [set, if_neg hc, hf]

theorem Tidy.length_others (ht : r.Tidy) (hf : r.find? quantity = some h) :
    (r.others quantity).length + 1 = r.held.length := by
  obtain ⟨hm, rfl⟩ := mem_of_find? hf
  obtain ⟨front, back, hheld⟩ := List.append_of_mem hm
  have hne : ∀ x ∈ front ++ back, x.quantity ≠ h.quantity := by
    have hnodup := ht.nodup
    rw [hheld, List.map_append, List.map_cons, List.nodup_middle, List.nodup_cons,
      ← List.map_append] at hnodup
    intro x hx hq
    exact hnodup.1 (List.mem_map.2 ⟨x, hx, hq⟩)
  rw [others_split hheld hne, hheld, List.length_append, List.length_append, List.length_cons]
  omega

theorem length_set (ht : r.Tidy) (quantity : Int) (shipment : Shipment) (now : Nat) :
    (r.set quantity shipment now).held.length =
      if (r.find? quantity).isSome then r.held.length else min r.capacity (r.held.length + 1) := by
  have hbound := ht.bounded
  by_cases hc : r.capacity = 0
  · rw [set_of_disabled hc, find?, ht.held_eq_nil hc, hc]
    rfl
  cases hf : r.find? quantity with
  | some found =>
    rw [set_of_held hc hf]
    exact ht.length_others hf
  | none =>
    rw [set_of_new hc hf]
    by_cases hfull : r.capacity ≤ r.held.length
    · simp [hfull]
      omega
    · simp [hfull]
      omega

end Operations

/-! ## Bounds -/

/-- No command changes how many entries there may be, or how old they may get. -/
theorem bounds_apply (r : Recency) (command : Cache.Command) :
    (r.apply command).2.capacity = r.capacity ∧ (r.apply command).2.timeToLive = r.timeToLive := by
  cases command with
  | get quantity now =>
    simp only [apply, get]
    split
    · exact ⟨rfl, rfl⟩
    · split <;> exact ⟨rfl, rfl⟩
  | set quantity shipment now =>
    simp only [apply, set]
    split
    · exact ⟨rfl, rfl⟩
    · split <;> exact ⟨rfl, rfl⟩
  | purge now => exact ⟨rfl, rfl⟩
  | invalidate => exact ⟨rfl, rfl⟩

end Recency
end PackPlan
