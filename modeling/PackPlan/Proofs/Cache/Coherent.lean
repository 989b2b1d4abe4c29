import PackPlan.Proofs.Cache.Run

/-!
# PackPlan.Proofs.Cache.Coherent

The three structures of a cache fit together in every state it gets into. `Coherent` says so in terms of
the cache alone: the index and the entries lead to each other, and following the links from either end
meets every entry once, in opposite orders. It is read off the keys that `Arranged` speaks of
(`Arranged.coherent`).

What an operation does where they would not fit is therefore never reached (`Unfailing`): a quantity in
the index has its entry, a full cache has a last entry, and after one entry is dropped there is room.
-/

namespace PackPlan
namespace Cache

/-- Following a link from a key on meets these keys, one after the other, and then ends. -/
inductive Follows (a : Arena Entry) (link : Entry → Option Nat) : Option Nat → List Nat → Prop where
  | stop : Follows a link none []
  | next {key : Nat} {e : Entry} {keys : List Nat} :
      a.get? key = some e → Follows a link (link e) keys → Follows a link (some key) (key :: keys)

/-- Index, entries and chain fit together. -/
structure Coherent (c : Cache) : Prop where
  /-- The index leads from each quantity to the one entry that has it. -/
  indexed : ∀ (quantity : Int) (key : Nat),
    c.index[quantity]? = some key ↔ ∃ e, c.entries.get? key = some e ∧ e.quantity = quantity
  /-- The chain has every entry once, and is the same from both ends. -/
  chained : ∃ keys : List Nat, keys.Nodup ∧
    (∀ key, key ∈ keys ↔ ∃ e, c.entries.get? key = some e) ∧
    Follows c.entries Entry.older c.head keys ∧ keys.getLast? = c.tail ∧
    Follows c.entries Entry.newer c.tail keys.reverse ∧ keys.head? = c.head
  newer_head : ∀ key e, c.head = some key → c.entries.get? key = some e → e.newer = none
  older_tail : ∀ key e, c.tail = some key → c.entries.get? key = some e → e.older = none
  head_eq_none : c.head = none ↔ c.size = 0
  tail_eq_none : c.tail = none ↔ c.size = 0
  size_le : c.size ≤ c.capacity

/-- No operation meets a state that it provides for and that should not be. -/
structure Unfailing (c : Cache) : Prop where
  /-- A quantity in the index has its entry. -/
  entry_of_index : ∀ (quantity : Int) (key : Nat), c.index[quantity]? = some key →
    ∃ e, c.entries.get? key = some e
  /-- A full cache has a last entry. -/
  tail_of_full : 0 < c.capacity → c.capacity ≤ c.index.size →
    ∃ key e, c.tail = some key ∧ c.entries.get? key = some e
  /-- However many rounds there may be, one makes room and is the last. -/
  makeRoom_once : 0 < c.capacity → ∀ n, makeRoom (n + 1) c = makeRoom 1 c ∧
    (makeRoom (n + 1) c).2.counters.evictions ≤ c.counters.evictions + 1 ∧
    (makeRoom (n + 1) c).2.index.size < (makeRoom (n + 1) c).2.capacity

/-! ## Following links -/

section Links

variable {a : Arena Entry} {newer older : Option Nat} {keys : List Nat}

/-- Downwards, the links lead through a stretch and on. -/
theorem Linked.follows_older (h : Linked a newer keys none) :
    Follows a Entry.older keys.head? keys := by
  induction keys generalizing newer with
  | nil => exact .stop
  | cons key rest ih =>
    obtain ⟨⟨e, he, -, ho⟩, hrest⟩ := h
    rw [Option.or_none] at ho
    exact .next he (ho ▸ ih hrest)

/-- Upwards, the last entry of a stretch comes first. -/
theorem Linked.follows_newer (h : Linked a none keys older) :
    Follows a Entry.newer keys.getLast? keys.reverse := by
  induction keys using List.reverseRecOn generalizing older with
  | nil => exact .stop
  | append_singleton front key ih =>
    rw [linked_append] at h
    obtain ⟨hfront, ⟨e, he, hn, -⟩, -⟩ := h
    rw [Option.or_none] at hn
    rw [List.getLast?_concat, List.reverse_concat]
    exact .next he (hn ▸ ih hfront)

end Links

/-! ## Arranged caches -/

section Arrangement

variable {c : Cache} {keys : List Nat}

theorem Arranged.mem_iff_exists (h : Arranged c keys) (key : Nat) :
    key ∈ keys ↔ ∃ e, c.entries.get? key = some e := by
  rw [h.mem_iff, heldAt, Option.isSome_map, Option.isSome_iff_exists]

theorem Arranged.coherent (h : Arranged c keys) : c.Coherent where
  indexed := by
    intro quantity key
    rw [h.indexed, heldAt, Option.map_map, Option.map_eq_some_iff]; rfl
  chained := by
    refine ⟨keys, h.threaded.nodup, h.mem_iff_exists, ?_, h.threaded.tail_eq.symm, ?_,
      h.threaded.head_eq.symm⟩
    · rw [h.threaded.head_eq]
      exact h.threaded.linked.follows_older
    · rw [h.threaded.tail_eq]
      exact h.threaded.linked.follows_newer
  newer_head := by
    intro key e hhead he
    have hlinked := h.threaded.linked
    rw [h.threaded.head_eq] at hhead
    obtain ⟨rest, rfl⟩ := List.head?_eq_some_iff.1 hhead
    obtain ⟨⟨e', he', hn, -⟩, -⟩ := hlinked
    rw [he] at he'
    cases he'; exact hn
  older_tail := by
    intro key e htail he
    have hlinked := h.threaded.linked
    rw [h.threaded.tail_eq] at htail
    obtain ⟨front, rfl⟩ := List.getLast?_eq_some_iff.1 htail
    rw [linked_append] at hlinked
    obtain ⟨-, ⟨e', he', -, ho⟩, -⟩ := hlinked
    rw [he] at he'
    cases he'; exact ho
  head_eq_none := by
    rw [h.threaded.head_eq, h.size_eq, List.head?_eq_none_iff, List.length_eq_zero_iff]
  tail_eq_none := by
    rw [h.threaded.tail_eq, h.size_eq, List.getLast?_eq_none_iff, List.length_eq_zero_iff]
  size_le := by
    rw [h.size_eq]
    exact h.bounded

theorem Arranged.unfailing (h : Arranged c keys) : c.Unfailing where
  entry_of_index := by
    intro quantity key hi
    exact (h.mem_iff_exists key).1 (h.mem_of_index hi).1
  tail_of_full := by
    intro hc hfull
    rw [h.size_index] at hfull
    rcases List.eq_nil_or_concat keys with rfl | ⟨front, key, hkeys⟩
    · exact absurd hfull (Nat.not_le.2 hc)
    rw [List.concat_eq_append] at hkeys
    subst hkeys
    obtain ⟨e, he⟩ := (h.mem_iff_exists key).1 (by simp)
    exact ⟨key, e, by rw [h.threaded.tail_eq, List.getLast?_concat], he⟩
  makeRoom_once := by
    intro hc n
    by_cases hfull : c.capacity ≤ keys.length
    · rcases List.eq_nil_or_concat keys with rfl | ⟨front, key, hkeys⟩
      · exact absurd hfull (Nat.not_le.2 hc)
      rw [List.concat_eq_append] at hkeys
      subst hkeys
      have hbound := h.bounded
      have hleft : Arranged (c.remove key) (front ++ []) := h.remove
      rw [h.makeRoom_full hfull n, h.makeRoom_full hfull 0]
      refine ⟨rfl, ?_, ?_⟩
      · show (c.remove key).counters.evictions + 1 ≤ _
        rw [(sameFigures_remove c key).counters_eq]
      · show (c.remove key).index.size < (c.remove key).capacity
        rw [hleft.size_index, (sameFigures_remove c key).capacity_eq, List.append_nil]
        rw [List.length_append, List.length_singleton] at hbound
        omega
    · have hroom : c.index.size < c.capacity := by rw [h.size_index]; omega
      rw [makeRoom_of_lt hroom, makeRoom_of_lt hroom]
      exact ⟨rfl, Nat.le_succ _, hroom⟩

/-- **Every state is in order.** Whatever the bounds and the commands, and however their times run, the
index, the entries and the chain of the cache fit together, and no operation meets a state in which
they do not. -/
theorem coherent_after (capacity timeToLive : Nat) (commands : List Command) :
    ((empty capacity timeToLive).after commands).Coherent ∧
      ((empty capacity timeToLive).after commands).Unfailing := by
  obtain ⟨keys, h, -⟩ := represents_after capacity timeToLive commands
  exact ⟨h.coherent, h.unfailing⟩

end Arrangement
end Cache
end PackPlan
