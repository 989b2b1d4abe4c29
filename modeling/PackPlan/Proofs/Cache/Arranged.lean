import Mathlib
import PackPlan.Proofs.Cache.Chain

/-!
# PackPlan.Proofs.Cache.Arranged

What holds of a cache between operations. `Arranged c keys` ties its three structures together: the
keys are those of all entries, in the order of the chain, and the index leads from each quantity to
the one entry that has it (`Indexes`). The steps that operations are made of keep this, each with
what it does to the keys: an entry comes to the front, one is dropped, one is replaced where it
stands, a new one is put in front (`Arranged.moveToFront`, `Arranged.remove`, `Arranged.replaceAt`,
`Arranged.insertFront`).
-/

namespace PackPlan
namespace Cache

/-- The index leads from each quantity to the one key under which it is stored. -/
def Indexes (index : Std.HashMap Int Nat) (stored : Nat → Option Held) : Prop :=
  ∀ quantity key, index[quantity]? = some key ↔ (stored key).map Held.quantity = some quantity

/-- Chain, entries and index agree on the keys, of which there are not too many. -/
structure Arranged (c : Cache) (keys : List Nat) : Prop where
  threaded : Threaded c keys
  mem_iff : ∀ key, key ∈ keys ↔ (c.heldAt key).isSome = true
  indexed : Indexes c.index c.heldAt
  bounded : keys.length ≤ c.capacity

/-- What is stored, in the order of the keys. -/
def heldAlong (c : Cache) (keys : List Nat) : List Held := keys.filterMap c.heldAt

theorem heldAlong_congr {c c' : Cache} {keys : List Nat}
    (h : ∀ key ∈ keys, c'.heldAt key = c.heldAt key) : c'.heldAlong keys = c.heldAlong keys :=
  List.filterMap_congr h

/-! ## The index -/

section Indexes

variable {index : Std.HashMap Int Nat} {stored stored' : Nat → Option Held} {key other : Nat}
  {held held' : Held}

/-- No two entries have one quantity. -/
theorem Indexes.key_unique (h : Indexes index stored) (hk : stored key = some held)
    (ho : stored other = some held') (hq : held'.quantity = held.quantity) : other = key := by
  have h1 := (h held.quantity key).2 (by rw [hk]; rfl)
  have h2 := (h held.quantity other).2 (by rw [ho, ← hq]; rfl)
  rw [h1] at h2
  cases h2; rfl

theorem Indexes.erase (h : Indexes index stored) (hk : stored key = some held)
    (hs : ∀ other, stored' other = if key = other then none else stored other) :
    Indexes (index.erase held.quantity) stored' := by
  intro quantity other
  rw [hs, Std.HashMap.getElem?_erase]
  by_cases hq : held.quantity = quantity
  · -- the index leads nowhere from this quantity any more, and no other entry has it
    rw [if_pos (beq_iff_eq.2 hq)]
    split
    · simp
    · rename_i hne
      constructor
      · intro hc; cases hc
      · intro hm
        obtain ⟨held', hh, hq'⟩ := Option.map_eq_some_iff.1 hm
        exact absurd (h.key_unique hk hh (hq'.trans hq.symm)).symm hne
  · rw [if_neg (by simpa using hq), h]
    split
    · rename_i heq; subst heq
      rw [hk]
      constructor
      · intro hm; cases hm; exact absurd rfl hq
      · intro hm; cases hm
    · rfl

theorem Indexes.insert (h : Indexes index stored) (hk : stored key = none)
    (hi : index[held.quantity]? = none)
    (hs : ∀ other, stored' other = if other = key then some held else stored other) :
    Indexes (index.insert held.quantity key) stored' := by
  intro quantity other
  rw [hs, Std.HashMap.getElem?_insert]
  by_cases hq : held.quantity = quantity
  · subst hq
    rw [if_pos (beq_self_eq_true _)]
    split
    · rename_i heq; simp [heq]
    · rename_i hne
      constructor
      · intro hc; cases hc; exact absurd rfl hne
      · intro hm
        rw [(h held.quantity other).2 hm] at hi
        cases hi
  · rw [if_neg (by simpa using hq), h]
    split
    · rename_i heq; subst heq
      rw [hk]
      constructor
      · intro hc; cases hc
      · intro hm; cases hm; exact absurd rfl hq
    · rfl

end Indexes

/-! ## Reading -/

section Reading

variable {c : Cache} {keys xs ys : List Nat} {key other : Nat} {held : Held}

theorem Arranged.exists_held (h : Arranged c keys) (hk : key ∈ keys) :
    ∃ held, c.heldAt key = some held :=
  Option.isSome_iff_exists.1 ((h.mem_iff key).1 hk)

theorem Arranged.mem_of_index {quantity : Int} (h : Arranged c keys)
    (hi : c.index[quantity]? = some key) :
    key ∈ keys ∧ ∃ held, c.heldAt key = some held ∧ held.quantity = quantity := by
  have hq := (h.indexed quantity key).1 hi
  obtain ⟨held, hheld, hquantity⟩ := Option.map_eq_some_iff.1 hq
  exact ⟨(h.mem_iff key).2 (by rw [hheld]; rfl), held, hheld, hquantity⟩

theorem heldAlong_split (hk : c.heldAt key = some held) :
    c.heldAlong (xs ++ key :: ys) = c.heldAlong xs ++ held :: c.heldAlong ys := by
  simp [heldAlong, hk]

/-- The other entries have other quantities. -/
theorem Arranged.quantity_ne (h : Arranged c (xs ++ key :: ys)) (hk : c.heldAt key = some held) :
    ∀ x ∈ c.heldAlong xs ++ c.heldAlong ys, x.quantity ≠ held.quantity := by
  have hside := not_mem_others h.threaded.nodup
  intro x hx hq
  rw [heldAlong, heldAlong, ← List.filterMap_append] at hx
  obtain ⟨other, hmem, ho⟩ := List.mem_filterMap.1 hx
  have heq := h.indexed.key_unique hk ho hq
  subst heq
  exact hside hmem

theorem Arranged.quantity_ne_of_index {quantity : Int} (h : Arranged c keys)
    (hi : c.index[quantity]? = none) : ∀ x ∈ c.heldAlong keys, x.quantity ≠ quantity := by
  intro x hx hq
  obtain ⟨key, -, hk⟩ := List.mem_filterMap.1 hx
  have hfound := (h.indexed quantity key).2 (by rw [hk, ← hq]; rfl)
  rw [hi] at hfound
  cases hfound

theorem length_heldAlong (hl : ∀ key ∈ keys, (c.heldAt key).isSome = true) :
    (c.heldAlong keys).length = keys.length := by
  induction keys with
  | nil => rfl
  | cons key rest ih =>
    obtain ⟨held, hk⟩ := Option.isSome_iff_exists.1 (hl key (List.mem_cons_self ..))
    rw [heldAlong, List.filterMap_cons_some hk, List.length_cons, List.length_cons, ← heldAlong,
      ih fun k hm => hl k (List.mem_cons_of_mem _ hm)]

theorem Arranged.length_heldAlong (h : Arranged c keys) :
    (c.heldAlong keys).length = keys.length :=
  Cache.length_heldAlong fun key hm => (h.mem_iff key).1 hm

/-- A property of what is stored may be asked of the keys instead. -/
theorem heldAlong_filter {p : Nat → Bool} {q : Held → Bool}
    (hpq : ∀ key held, c.heldAt key = some held → p key = q held) :
    c.heldAlong (keys.filter p) = (c.heldAlong keys).filter q := by
  induction keys with
  | nil => rfl
  | cons key rest ih =>
    simp only [heldAlong] at ih ⊢
    cases hk : c.heldAt key with
    | none =>
      rw [List.filterMap_cons_none hk, ← ih, List.filter_cons]
      split
      · rw [List.filterMap_cons_none hk]
      · rfl
    | some held =>
      rw [List.filterMap_cons_some hk, List.filter_cons, List.filter_cons, hpq key held hk]
      split
      · rw [List.filterMap_cons_some hk, ih]
      · exact ih

/-- Following the links from the head meets the entries in the order of the keys. -/
theorem chainFrom_eq {newer : Option Nat} (h : Linked c.entries newer keys none) :
    ∀ n, keys.length ≤ n → c.chainFrom n keys.head? = keys.filterMap c.entries.get? := by
  induction keys generalizing newer with
  | nil => intro n _; cases n <;> rfl
  | cons key rest ih =>
    obtain ⟨⟨e, he, -, ho⟩, hrest⟩ := h
    rw [Option.or_none] at ho
    intro n hn
    cases n with
    | zero => cases hn
    | succ n =>
      rw [List.filterMap_cons_some he, ← ih hrest n (by simpa using hn), ← ho]
      simp only [chainFrom, List.head?_cons, Option.bind_some, he]

theorem Arranged.size_eq (h : Arranged c keys) : c.size = keys.length := by
  refine List.Perm.length_eq ((List.perm_ext_iff_of_nodup (Arena.nodup_keys _) h.threaded.nodup).2 ?_)
  intro key
  rw [Arena.mem_keys, h.mem_iff, heldAt, Option.isSome_map]

theorem Arranged.map_chain (h : Arranged c keys) :
    c.chain.map Entry.toHeld = c.heldAlong keys := by
  rw [chain, h.threaded.head_eq,
    chainFrom_eq h.threaded.linked c.size (Nat.le_of_eq h.size_eq.symm), List.map_filterMap]; rfl

theorem Arranged.recencyOrder_eq (h : Arranged c keys) :
    c.recencyOrder = (c.heldAlong keys).map Held.quantity := by
  rw [← h.map_chain, List.map_map]; rfl

/-- No quantity is stored twice. -/
theorem Arranged.nodup_quantities (h : Arranged c keys) :
    ((c.heldAlong keys).map Held.quantity).Nodup := by
  rw [heldAlong, List.map_filterMap]
  refine List.Nodup.filterMap ?_ h.threaded.nodup
  intro key other quantity hk ho
  have h1 := (h.indexed quantity key).2 hk
  have h2 := (h.indexed quantity other).2 ho
  rw [h1] at h2
  cases h2; rfl

/-- The index has as many quantities as there are keys. -/
theorem Arranged.size_index (h : Arranged c keys) : c.index.size = keys.length := by
  have hquantities : ((c.heldAlong keys).map Held.quantity).length = keys.length := by
    rw [List.length_map, h.length_heldAlong]
  rw [← hquantities, ← Std.HashMap.length_keys]
  refine List.Perm.length_eq
    ((List.perm_ext_iff_of_nodup Std.HashMap.nodup_keys h.nodup_quantities).2 ?_)
  intro quantity
  rw [Std.HashMap.mem_keys, Std.HashMap.mem_iff_isSome_getElem?, Option.isSome_iff_exists,
    heldAlong, List.map_filterMap, List.mem_filterMap]
  constructor
  · rintro ⟨key, hi⟩
    exact ⟨key, (h.mem_of_index hi).1, (h.indexed quantity key).1 hi⟩
  · rintro ⟨key, -, hk⟩
    exact ⟨key, (h.indexed quantity key).2 hk⟩

end Reading

/-! ## Steps -/

section Steps

variable {c c' : Cache} {keys keys' xs ys : List Nat} {key : Nat} {held : Held}

theorem Arranged.of_sameContent (h : Arranged c keys) (hs : SameContent c c')
    (ht : Threaded c' keys') (hp : keys'.Perm keys) : Arranged c' keys' where
  threaded := ht
  mem_iff := by intro key; rw [hp.mem_iff, h.mem_iff, hs.heldAt_eq]
  indexed := by intro quantity key; rw [hs.index_eq, hs.heldAt_eq, h.indexed quantity key]
  bounded := by rw [hp.length_eq, hs.capacity_eq]; exact h.bounded

theorem Arranged.count (h : Arranged c keys) (f : Counters → Counters) :
    Arranged (c.count f) keys :=
  ⟨⟨h.threaded.nodup, h.threaded.linked, h.threaded.head_eq, h.threaded.tail_eq⟩, h.mem_iff,
    h.indexed, h.bounded⟩

theorem Arranged.moveToFront (h : Arranged c (xs ++ key :: ys)) :
    Arranged (c.moveToFront key) (key :: (xs ++ ys)) :=
  h.of_sameContent (sameContent_moveToFront c key) (threaded_moveToFront h.threaded)
    List.perm_middle.symm

theorem sameFigures_remove (c : Cache) (key : Nat) : SameFigures c (c.remove key) := by
  unfold Cache.remove
  split
  · exact ⟨rfl, rfl, rfl⟩
  · have hs := sameContent_unlink c key
    exact ⟨hs.capacity_eq, hs.timeToLive_eq, hs.counters_eq⟩

theorem heldAt_remove (c : Cache) (key other : Nat) :
    (c.remove key).heldAt other = if key = other then none else c.heldAt other := by
  unfold Cache.remove
  split
  · rename_i hnone
    split
    · rename_i heq; subst heq
      simp [heldAt, hnone]
    · rfl
  · have hs := (sameContent_unlink c key).heldAt_eq other
    simp only [heldAt] at hs ⊢
    rw [Arena.get?_remove]
    split
    · rfl
    · exact hs

/-- The entry is gone, and the others are where they were. -/
theorem Arranged.remove (h : Arranged c (xs ++ key :: ys)) :
    Arranged (c.remove key) (xs ++ ys) := by
  have hside := not_mem_others h.threaded.nodup
  have hk : key ∈ xs ++ key :: ys := by simp
  obtain ⟨held, hheld⟩ := h.exists_held hk
  obtain ⟨e, he, rfl⟩ := Option.map_eq_some_iff.1 hheld
  have hremove : c.remove key = { c.unlink key with
      entries := (c.unlink key).entries.remove key
      index := (c.unlink key).index.erase e.quantity } := by
    simp only [Cache.remove, he]
  have hthread := threaded_unlink h.threaded
  refine ⟨?_, ?_, ?_, ?_⟩
  · rw [hremove]
    refine ⟨hthread.nodup, hthread.linked.congr fun other hm => ?_, hthread.head_eq,
      hthread.tail_eq⟩
    have hne : key ≠ other := by rintro rfl; exact hside hm
    rw [Arena.get?_remove, if_neg hne]
  · intro other
    rw [heldAt_remove]
    split
    · rename_i heq; subst heq
      simpa using hside
    · rename_i hne
      rw [← h.mem_iff, List.mem_append, List.mem_append, List.mem_cons]
      exact ⟨fun hm => hm.imp_right .inr, fun hm => hm.imp_right fun hm =>
        hm.resolve_left fun heq => hne heq.symm⟩
  · have hindex : (c.remove key).index = c.index.erase e.quantity := by
      rw [hremove, (sameContent_unlink c key).index_eq]
    rw [hindex]
    exact h.indexed.erase hheld (heldAt_remove c key)
  · rw [(sameFigures_remove c key).capacity_eq]
    have := h.bounded
    simp only [List.length_append, List.length_cons] at this ⊢
    omega

/-- An entry without links may be changed where it stands. -/
theorem Linked.replace {a : Arena Entry} {newer older : Option Nat} {f : Entry → Entry}
    (hf : ∀ e, (f e).newer = e.newer ∧ (f e).older = e.older) (h : Linked a newer keys older) :
    Linked (a.modify key f) newer keys older := by
  induction keys generalizing newer with
  | nil => trivial
  | cons first rest ih =>
    obtain ⟨⟨e, he, hn, ho⟩, hrest⟩ := h
    by_cases hk : key = first
    · refine ⟨⟨f e, ?_, (hf e).1.trans hn, (hf e).2.trans ho⟩, ih hrest⟩
      rw [Arena.get?_modify, if_pos hk, he]; rfl
    · refine ⟨⟨e, ?_, hn, ho⟩, ih hrest⟩
      rw [Arena.get?_modify, if_neg hk, he]

/-- Stores another shipment under a key. -/
def replaceAt (c : Cache) (key : Nat) (shipment : Shipment) (now : Nat) : Cache :=
  { c with entries := c.entries.modify key fun e => { e with shipment := shipment, created := now } }

theorem heldAt_replaceAt (c : Cache) (key : Nat) (shipment : Shipment) (now other : Nat) :
    (c.replaceAt key shipment now).heldAt other =
      if key = other then (c.heldAt other).map fun h => ⟨h.quantity, shipment, now⟩
      else c.heldAt other := by
  simp only [replaceAt, heldAt, Arena.get?_modify]
  split
  · rw [Option.map_map, Option.map_map]; rfl
  · rfl

theorem Arranged.replaceAt (h : Arranged c keys) (key : Nat) (shipment : Shipment) (now : Nat) :
    Arranged (c.replaceAt key shipment now) keys where
  threaded := ⟨h.threaded.nodup, h.threaded.linked.replace fun _ => ⟨rfl, rfl⟩,
    h.threaded.head_eq, h.threaded.tail_eq⟩
  mem_iff := by
    intro other
    rw [h.mem_iff, heldAt_replaceAt]
    split
    · rw [Option.isSome_map]
    · rfl
  indexed := by
    intro quantity other
    rw [heldAt_replaceAt]
    have hi : c.index[quantity]? = some other ↔ _ := h.indexed quantity other
    split
    · rw [Option.map_map]; exact hi
    · exact hi
  bounded := h.bounded

/-- Stores a new quantity and puts it in front. -/
def insertFront (c : Cache) (quantity : Int) (shipment : Shipment) (now : Nat) : Cache :=
  { c with
    entries := c.entries.insert ⟨quantity, shipment, now, none, none⟩
    index := c.index.insert quantity c.entries.nextKey : Cache }.pushFront c.entries.nextKey

theorem Arranged.insertFront (h : Arranged c keys) {quantity : Int} (shipment : Shipment) (now : Nat)
    (hi : c.index[quantity]? = none) (hroom : keys.length < c.capacity) :
    Arranged (c.insertFront quantity shipment now) (c.entries.nextKey :: keys) ∧
      ∀ other, (c.insertFront quantity shipment now).heldAt other =
        if other = c.entries.nextKey then some ⟨quantity, shipment, now⟩ else c.heldAt other := by
  let stored : Cache := { c with
    entries := c.entries.insert ⟨quantity, shipment, now, none, none⟩
    index := c.index.insert quantity c.entries.nextKey }
  have hfree : c.heldAt c.entries.nextKey = none := by rw [heldAt, Arena.get?_nextKey]; rfl
  have hnew : c.entries.nextKey ∉ keys := by
    rw [h.mem_iff, hfree]; simp
  have hheld : ∀ other, stored.heldAt other =
      if other = c.entries.nextKey then some ⟨quantity, shipment, now⟩ else c.heldAt other := by
    intro other
    simp only [stored, heldAt, Arena.get?_insert]
    split <;> rfl
  have hs : SameContent stored (c.insertFront quantity shipment now) := sameContent_pushFront _ _
  have hstored : Threaded stored keys := by
    refine ⟨h.threaded.nodup, h.threaded.linked.congr fun other hm => ?_, h.threaded.head_eq,
      h.threaded.tail_eq⟩
    have hne : other ≠ c.entries.nextKey := by rintro rfl; exact hnew hm
    simp only [stored, Arena.get?_insert, if_neg hne]
  have hlive : (stored.entries.get? c.entries.nextKey).isSome = true := by
    simp [stored, Arena.get?_insert]
  refine ⟨⟨threaded_pushFront hstored hnew hlive, ?_, ?_, ?_⟩, fun other => ?_⟩
  · intro other
    rw [hs.heldAt_eq, hheld, List.mem_cons]
    split
    · rename_i heq; simp [heq]
    · rename_i hne
      rw [h.mem_iff]
      exact ⟨fun hm => hm.resolve_left hne, .inr⟩
  · rw [hs.index_eq]
    have hnone : c.index[Held.quantity ⟨quantity, shipment, now⟩]? = none := hi
    refine h.indexed.insert hfree hnone fun other => ?_
    rw [hs.heldAt_eq, hheld]
  · rw [hs.capacity_eq]; exact hroom
  · rw [hs.heldAt_eq, hheld]

end Steps
end Cache
end PackPlan
