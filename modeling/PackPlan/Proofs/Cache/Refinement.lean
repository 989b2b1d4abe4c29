import PackPlan.Proofs.Cache.Arranged

/-!
# PackPlan.Proofs.Cache.Refinement

A cache does what the plain list of `Recency` does. `Represents c r` says that the cache is in order
and that its entries, along the chain, are those of the list; each operation keeps it and gives the
same answer on both sides (`Represents.get`, `Represents.set`, `Represents.purge`,
`Represents.invalidate`, together `Represents.apply`).

`trace_eq_recency` is the statement about runs: whatever the capacity, the time to live, the commands
and their times, one sees the same after every command, namely the reply, the number of entries, their
order and all counters.
-/

namespace PackPlan
namespace Recency

/-! ## The list -/

variable {r : Recency} {as bs : List Held} {h : Held} {quantity : Int}

theorem find?_eq_none (hne : ∀ x ∈ r.held, x.quantity ≠ quantity) : r.find? quantity = none := by
  rw [find?, List.find?_eq_none]
  intro x hx
  simpa using hne x hx

theorem find?_split (hr : r.held = as ++ h :: bs)
    (hne : ∀ x ∈ as ++ bs, x.quantity ≠ h.quantity) : r.find? h.quantity = some h := by
  rw [find?, hr, List.find?_append, List.find?_eq_none.2 fun x hx => ?_]
  · simp
  · simpa using hne x (List.mem_append_left _ hx)

theorem others_split (hr : r.held = as ++ h :: bs)
    (hne : ∀ x ∈ as ++ bs, x.quantity ≠ h.quantity) : r.others h.quantity = as ++ bs := by
  have hkept : (as ++ bs).filter (fun x => x.quantity != h.quantity) = as ++ bs := by
    rw [List.filter_eq_self]
    intro x hx
    simpa using hne x hx
  rw [others, hr, List.filter_append, List.filter_cons_of_neg (by simp), ← List.filter_append, hkept]

end Recency

namespace Cache

/-- The list of the entries under the keys. -/
def listed (c : Cache) (keys : List Nat) : Recency where
  held := c.heldAlong keys
  capacity := c.capacity
  timeToLive := c.timeToLive
  counters := c.counters

/-- The cache is in order and its entries are those of the list. -/
def Represents (c : Cache) (r : Recency) : Prop := ∃ keys, Arranged c keys ∧ c.listed keys = r

/-! ## What shows -/

section Showing

variable {c : Cache} {r : Recency}

theorem Represents.size_eq (h : Represents c r) : c.size = r.held.length := by
  obtain ⟨keys, ha, rfl⟩ := h
  exact ha.size_eq.trans ha.length_heldAlong.symm

theorem Represents.recencyOrder_eq (h : Represents c r) :
    c.recencyOrder = r.held.map Held.quantity := by
  obtain ⟨keys, ha, rfl⟩ := h
  exact ha.recencyOrder_eq

theorem represents_empty (capacity timeToLive : Nat) :
    Represents (empty capacity timeToLive) (Recency.empty capacity timeToLive) := by
  refine ⟨[], ⟨⟨List.nodup_nil, trivial, rfl, rfl⟩, ?_, ?_, Nat.zero_le _⟩, rfl⟩
  · intro key
    simp [heldAt, empty]
  · intro quantity key
    simp [heldAt, empty]

end Showing

/-! ## Lookups -/

section Get

variable {c : Cache} {r : Recency} {keys : List Nat} {quantity : Int}

/-- The index finds the entry of a quantity: it stands somewhere in the chain, and no other entry
has its quantity. -/
theorem Arranged.split_of_index {key : Nat} (h : Arranged c keys)
    (hi : c.index[quantity]? = some key) :
    ∃ xs ys held, keys = xs ++ key :: ys ∧ c.heldAt key = some held ∧ held.quantity = quantity ∧
      (c.listed keys).find? quantity = some held ∧
      (c.listed keys).others quantity = c.heldAlong (xs ++ ys) := by
  obtain ⟨hm, held, hk, rfl⟩ := h.mem_of_index hi
  obtain ⟨xs, ys, rfl⟩ := List.append_of_mem hm
  have hne := h.quantity_ne hk
  have hsplit : (c.listed (xs ++ key :: ys)).held = c.heldAlong xs ++ held :: c.heldAlong ys :=
    heldAlong_split hk
  refine ⟨xs, ys, held, rfl, hk, rfl, Recency.find?_split hsplit hne, ?_⟩
  rw [Recency.others_split hsplit hne, heldAlong, heldAlong, heldAlong, List.filterMap_append]

/-- An operation that keeps the figures and then counts. -/
theorem listed_count {c' : Cache} (hf : SameFigures c c') (f : Counters → Counters) :
    (c'.count f).listed keys =
      ⟨c'.heldAlong keys, c.capacity, c.timeToLive, f c.counters⟩ := by
  rw [← hf.capacity_eq, ← hf.timeToLive_eq, ← hf.counters_eq]; rfl

/-- Without a key that is not among them, the same is stored along the keys. -/
theorem heldAlong_remove {key : Nat} (hk : key ∉ keys) :
    (c.remove key).heldAlong keys = c.heldAlong keys := by
  refine heldAlong_congr fun other hm => ?_
  have hne : key ≠ other := by rintro rfl; exact hk hm
  rw [heldAt_remove, if_neg hne]

theorem Represents.get (h : Represents c r) (quantity : Int) (now : Nat) :
    (c.get quantity now).1 = (r.get quantity now).1 ∧
      Represents (c.get quantity now).2 (r.get quantity now).2 := by
  obtain ⟨keys, ha, rfl⟩ := h
  cases hi : c.index[quantity]? with
  | none =>
    have hfind := Recency.find?_eq_none (r := c.listed keys) (ha.quantity_ne_of_index hi)
    simp only [Cache.get, Recency.get, hi, hfind]
    exact ⟨trivial, keys, ha.count _, rfl⟩
  | some key =>
    obtain ⟨xs, ys, held, rfl, hk, rfl, hfind, hothers⟩ := ha.split_of_index hi
    have hside := not_mem_others ha.threaded.nodup
    obtain ⟨e, he, rfl⟩ := Option.map_eq_some_iff.1 hk
    -- the entry is expired on one side exactly when it is on the other
    have hsame : (c.listed (xs ++ key :: ys)).isExpired now e.toHeld = c.isExpired now e := rfl
    simp only [Cache.get, Recency.get, hi, hfind, hothers, he, hsame]
    by_cases hold : c.isExpired now e = true
    · have hnone : (some e).filter (fun e => !c.isExpired now e) = none := by simp [hold]
      rw [hnone, if_pos hold]
      dsimp only
      refine ⟨rfl, xs ++ ys, ha.remove.count _, ?_⟩
      rw [listed_count (sameFigures_remove c key), heldAlong_remove hside]; rfl
    · have hsome : (some e).filter (fun e => !c.isExpired now e) = some e := by simp [hold]
      rw [hsome, if_neg hold]
      dsimp only
      have hmoved := sameContent_moveToFront c key
      have hfront : (c.moveToFront key).heldAlong (key :: (xs ++ ys)) =
          e.toHeld :: c.heldAlong (xs ++ ys) := by
        rw [heldAlong_congr fun other _ => hmoved.heldAt_eq other, heldAlong,
          List.filterMap_cons_some hk, heldAlong]
      refine ⟨rfl, key :: (xs ++ ys), ha.moveToFront.count _, ?_⟩
      rw [listed_count hmoved.toSameFigures, hfront]; rfl

end Get
/-! ## Storing -/

section Set

variable {c : Cache} {r : Recency} {keys xs : List Nat} {key : Nat} {quantity : Int}

theorem Arranged.index_eq_none (h : Arranged c keys)
    (hne : ∀ x ∈ c.heldAlong keys, x.quantity ≠ quantity) : c.index[quantity]? = none := by
  rw [Option.eq_none_iff_forall_ne_some]
  intro key hi
  obtain ⟨hm, held, hk, hq⟩ := h.mem_of_index hi
  exact hne held (List.mem_filterMap.2 ⟨key, hm, hk⟩) hq

theorem makeRoom_of_lt (hroom : c.index.size < c.capacity) :
    ∀ n, makeRoom n c = ([], c) := by
  intro n
  cases n with
  | zero => rfl
  | succ n => rw [makeRoom, if_pos hroom]

/-- A full cache loses its last entry, and then there is room, however many rounds there may be. -/
theorem Arranged.makeRoom_full (h : Arranged c (xs ++ [key]))
    (hfull : c.capacity ≤ (xs ++ [key]).length) (n : Nat) :
    Cache.makeRoom (n + 1) c = (((c.heldAt key).map Held.quantity).toList,
      (c.remove key).count fun n => { n with evictions := n.evictions + 1 }) := by
  have hbound := h.bounded
  have hremoved : (c.remove key).index.size < (c.remove key).capacity := by
    have hleft : Arranged (c.remove key) (xs ++ []) := h.remove
    rw [hleft.size_index, (sameFigures_remove c key).capacity_eq, List.append_nil]
    rw [List.length_append, List.length_singleton] at hbound
    omega
  have htail : c.tail = some key := by
    rw [h.threaded.tail_eq, List.getLast?_concat]
  have hnot : ¬ c.index.size < c.capacity := by
    rw [h.size_index]; omega
  have hquantity : (c.entries.get? key).map Entry.quantity = (c.heldAt key).map Held.quantity := by
    rw [heldAt, Option.map_map]; rfl
  rw [Cache.makeRoom, if_neg hnot, htail]
  simp only
  rw [makeRoom_of_lt (c := (c.remove key).count fun n => { n with evictions := n.evictions + 1 })
    hremoved, List.append_nil, hquantity]

/-- There is room for one more entry, and only the last one went for it, if any. -/
theorem Arranged.makeRoom (h : Arranged c keys) (hc : c.capacity ≠ 0) :
    ∃ room keys', (makeRoom c.index.size c).2 = room ∧ Arranged room keys' ∧
      keys'.length < room.capacity ∧ room.capacity = c.capacity ∧
      room.timeToLive = c.timeToLive ∧
      room.heldAlong keys' = (if c.capacity ≤ keys.length then (c.heldAlong keys).dropLast
        else c.heldAlong keys) ∧
      room.counters = { c.counters with
        evictions := c.counters.evictions + if c.capacity ≤ keys.length then 1 else 0 } := by
  by_cases hfull : c.capacity ≤ keys.length
  · rcases List.eq_nil_or_concat keys with rfl | ⟨xs, key, hkeys⟩
    · exact absurd (Nat.le_zero.1 hfull) hc
    rw [List.concat_eq_append] at hkeys
    subst hkeys
    have hlast : key ∈ xs ++ [key] := by simp
    obtain ⟨held, hk⟩ := h.exists_held hlast
    have hf := sameFigures_remove c key
    have hleft : Arranged (c.remove key) xs := by
      have hleft : Arranged (c.remove key) (xs ++ []) := h.remove
      rwa [List.append_nil] at hleft
    have hsize : c.index.size = xs.length + 1 := by
      rw [h.size_index, List.length_append, List.length_singleton]
    refine ⟨_, xs, by rw [hsize, h.makeRoom_full hfull], hleft.count _, ?_, hf.capacity_eq,
      hf.timeToLive_eq, ?_, ?_⟩
    · have := h.bounded
      rw [List.length_append, List.length_singleton] at this
      show xs.length < (c.remove key).capacity
      rw [hf.capacity_eq]; omega
    · show (c.remove key).heldAlong xs = _
      rw [if_pos hfull, heldAlong_remove (not_mem_sides h.threaded.nodup).1, heldAlong_split hk]
      exact List.dropLast_concat.symm
    · show { (c.remove key).counters with evictions := (c.remove key).counters.evictions + 1 } = _
      rw [if_pos hfull, hf.counters_eq]
  · have hroom : c.index.size < c.capacity := by rw [h.size_index]; omega
    refine ⟨c, keys, by rw [makeRoom_of_lt hroom], h, by omega, rfl, rfl, ?_, ?_⟩
    · rw [if_neg hfull]
    · rw [if_neg hfull]; rfl

theorem sameFigures_insertFront (c : Cache) (quantity : Int) (shipment : Shipment) (now : Nat) :
    SameFigures c (c.insertFront quantity shipment now) := by
  have hs := sameContent_pushFront { c with
    entries := c.entries.insert ⟨quantity, shipment, now, none, none⟩
    index := c.index.insert quantity c.entries.nextKey } c.entries.nextKey
  exact ⟨hs.capacity_eq, hs.timeToLive_eq, hs.counters_eq⟩

/-- The entry that was replaced comes first, before the others. -/
theorem Arranged.heldAlong_replaceAt {ys : List Nat} {held : Held} (h : Arranged c (xs ++ key :: ys))
    (hk : c.heldAt key = some held) (shipment : Shipment) (now : Nat) :
    ((c.replaceAt key shipment now).moveToFront key).heldAlong (key :: (xs ++ ys)) =
      ⟨held.quantity, shipment, now⟩ :: c.heldAlong (xs ++ ys) := by
  have hside := not_mem_others h.threaded.nodup
  have hmoved := sameContent_moveToFront (c.replaceAt key shipment now) key
  have hfirst : ((c.replaceAt key shipment now).moveToFront key).heldAt key =
      some ⟨held.quantity, shipment, now⟩ := by
    rw [hmoved.heldAt_eq, heldAt_replaceAt, if_pos rfl, hk]; rfl
  rw [heldAlong, List.filterMap_cons_some hfirst]
  refine congrArg _ (heldAlong_congr fun other hm => ?_)
  have hne : key ≠ other := by rintro rfl; exact hside hm
  rw [hmoved.heldAt_eq, heldAt_replaceAt, if_neg hne]

/-- The new entry comes first, before those that were there. -/
theorem Arranged.heldAlong_insertFront (h : Arranged c keys) (shipment : Shipment) (now : Nat)
    (hi : c.index[quantity]? = none) (hroom : keys.length < c.capacity) :
    (c.insertFront quantity shipment now).heldAlong (c.entries.nextKey :: keys) =
      ⟨quantity, shipment, now⟩ :: c.heldAlong keys := by
  obtain ⟨hfront, heldAt_eq⟩ := h.insertFront shipment now hi hroom
  have hnew : c.entries.nextKey ∉ keys := (List.nodup_cons.1 hfront.threaded.nodup).1
  have hfirst : (c.insertFront quantity shipment now).heldAt c.entries.nextKey =
      some ⟨quantity, shipment, now⟩ := by rw [heldAt_eq, if_pos rfl]
  rw [heldAlong, List.filterMap_cons_some hfirst]
  refine congrArg _ (heldAlong_congr fun other hm => ?_)
  have hne : other ≠ c.entries.nextKey := by rintro rfl; exact hnew hm
  rw [heldAt_eq, if_neg hne]

theorem Represents.set (h : Represents c r) (quantity : Int) (shipment : Shipment) (now : Nat) :
    Represents (c.set quantity shipment now).2 (r.set quantity shipment now) := by
  obtain ⟨keys, ha, rfl⟩ := h
  by_cases hc : c.capacity = 0
  · have hcr : (c.listed keys).capacity = 0 := hc
    rw [Cache.set, Recency.set, if_pos hc, if_pos hcr]
    exact ⟨keys, ha, rfl⟩
  have hcr : ¬ (c.listed keys).capacity = 0 := hc
  rw [Cache.set, Recency.set, if_neg hc, if_neg hcr]
  cases hi : c.index[quantity]? with
  | some key =>
    obtain ⟨xs, ys, held, rfl, hk, rfl, hfind, hothers⟩ := ha.split_of_index hi
    simp only [hfind, hothers]
    have hmoved := sameContent_moveToFront (c.replaceAt key shipment now) key
    have hreplaced : SameFigures c (c.replaceAt key shipment now) := ⟨rfl, rfl, rfl⟩
    have hfigures := hreplaced.trans hmoved.toSameFigures
    refine ⟨key :: (xs ++ ys), (ha.replaceAt key shipment now).moveToFront.count _, ?_⟩
    refine (listed_count hfigures _).trans ?_
    rw [ha.heldAlong_replaceAt hk]; rfl
  | none =>
    have hne := ha.quantity_ne_of_index hi
    have hfind := Recency.find?_eq_none (r := c.listed keys) hne
    obtain ⟨room, keys', hmade, hroom, hlt, hcap, httl, hheld, hcount⟩ := ha.makeRoom hc
    have hnone : room.index[quantity]? = none := by
      refine hroom.index_eq_none fun x hx => hne x ?_
      rw [hheld] at hx
      split at hx
      · exact List.dropLast_subset _ hx
      · exact hx
    simp only [hfind, hmade]
    refine ⟨_, (hroom.insertFront shipment now hnone hlt).1.count _, ?_⟩
    refine (listed_count (sameFigures_insertFront room quantity shipment now) _).trans ?_
    have hlength : (c.listed keys).held.length = keys.length := ha.length_heldAlong
    rw [hroom.heldAlong_insertFront shipment now hnone hlt, hheld, hcap, httl, hcount, hlength]
    by_cases hfull : c.capacity ≤ keys.length
    · simp [listed, hfull]
    · simp [listed, hfull]

end Set

/-! ## Dropping -/

section Purge

variable {c : Cache} {r : Recency} {keys : List Nat}

theorem Arranged.remove_filter (h : Arranged c keys) (key : Nat) :
    Arranged (c.remove key) (keys.filter fun other => other ≠ key) := by
  by_cases hk : key ∈ keys
  · obtain ⟨xs, ys, rfl⟩ := List.append_of_mem hk
    have hside := not_mem_others h.threaded.nodup
    have hkept : (xs ++ ys).filter (fun other => other ≠ key) = xs ++ ys := by
      rw [List.filter_eq_self]
      intro other hm
      have hne : other ≠ key := by rintro rfl; exact hside hm
      simpa using hne
    rw [List.filter_append, List.filter_cons_of_neg (by simp), ← List.filter_append, hkept]
    exact h.remove
  · have hvacant : c.heldAt key = none := by
      rwa [h.mem_iff, Bool.not_eq_true, Option.isSome_eq_false_iff, Option.isNone_iff_eq_none] at hk
    have hkept : keys.filter (fun other => other ≠ key) = keys := by
      rw [List.filter_eq_self]
      intro other hm
      have hne : other ≠ key := by rintro rfl; exact hk hm
      simpa using hne
    have hnone : c.entries.get? key = none := Option.map_eq_none_iff.1 hvacant
    rw [hkept, Cache.remove, hnone]
    exact h

/-- A sweep drops the keys it is given, in whatever order, and leaves the rest as it was. -/
theorem Arranged.foldl_remove (h : Arranged c keys) (dropped : List Nat) :
    Arranged (dropped.foldl Cache.remove c) (keys.filter fun key => key ∉ dropped) ∧
      SameFigures c (dropped.foldl Cache.remove c) ∧
      ∀ key, key ∉ dropped → (dropped.foldl Cache.remove c).heldAt key = c.heldAt key := by
  induction dropped generalizing c keys with
  | nil =>
    refine ⟨?_, ⟨rfl, rfl, rfl⟩, fun _ _ => rfl⟩
    have hkept : (keys.filter fun key => key ∉ ([] : List Nat)) = keys := by simp
    rw [hkept]; exact h
  | cons first rest ih =>
    obtain ⟨harranged, hfigures, hheld⟩ := ih (h.remove_filter first)
    refine ⟨?_, (sameFigures_remove c first).trans hfigures, ?_⟩
    · have hkeys : (keys.filter fun key => key ∉ first :: rest) =
          (keys.filter fun other => other ≠ first).filter fun key => key ∉ rest := by
        rw [List.filter_filter]
        refine List.filter_congr fun key _ => ?_
        simp [List.mem_cons, not_or, Bool.and_comm]
      rw [hkeys]; exact harranged
    · intro key hk
      rw [List.mem_cons, not_or] at hk
      rw [List.foldl_cons, hheld key hk.2, heldAt_remove, if_neg fun heq => hk.1 heq.symm]

theorem mem_expiredKeys (keys : List Nat) {now key : Nat} :
    key ∈ c.expiredKeys now ↔
      ∃ held, c.heldAt key = some held ∧ (c.listed keys).isExpired now held = true := by
  rw [expiredKeys, List.mem_filter, Arena.mem_keys, heldAt]
  cases c.entries.get? key with
  | none => simp
  | some e =>
    have hsame : (c.listed keys).isExpired now e.toHeld = c.isExpired now e := rfl
    simp [hsame]

/-- Being among the expired keys is a property of what is stored. -/
theorem decide_mem_expiredKeys {now key : Nat} {held : Held} (hk : c.heldAt key = some held) :
    decide (key ∈ c.expiredKeys now) = (c.listed keys).isExpired now held := by
  rw [Bool.eq_iff_iff, decide_eq_true_iff, mem_expiredKeys keys]
  constructor
  · rintro ⟨other, ho, he⟩
    rw [hk] at ho
    cases ho; exact he
  · intro he
    exact ⟨held, hk, he⟩

/-- The sweep goes by slots and the list by recency, but both meet each expired entry once. -/
theorem Arranged.length_expiredKeys (h : Arranged c keys) (now : Nat) :
    (c.expiredKeys now).length =
      ((c.heldAlong keys).filter ((c.listed keys).isExpired now)).length := by
  have hperm : (c.expiredKeys now).Perm (keys.filter fun key => key ∈ c.expiredKeys now) := by
    have hnodup : (c.expiredKeys now).Nodup := (Arena.nodup_keys _).filter _
    rw [List.perm_ext_iff_of_nodup hnodup (h.threaded.nodup.filter _)]
    intro key
    rw [List.mem_filter, decide_eq_true_iff]
    constructor
    · intro hk
      obtain ⟨held, hheld, -⟩ := (mem_expiredKeys keys).1 hk
      exact ⟨(h.mem_iff key).2 (by rw [hheld]; rfl), hk⟩
    · exact And.right
  rw [← heldAlong_filter fun key held hk => decide_mem_expiredKeys hk, Cache.length_heldAlong]
  · exact hperm.length_eq
  · intro key hk
    exact (h.mem_iff key).1 (List.mem_filter.1 hk).1

theorem Represents.purge (h : Represents c r) (now : Nat) :
    (c.purge now).1 = (r.purge now).1 ∧ Represents (c.purge now).2 (r.purge now).2 := by
  obtain ⟨keys, ha, rfl⟩ := h
  obtain ⟨harranged, hfigures, hheld⟩ := ha.foldl_remove (c.expiredKeys now)
  have hcount := ha.length_expiredKeys now
  have hkept : ((c.expiredKeys now).foldl Cache.remove c).heldAlong
        (keys.filter fun key => key ∉ c.expiredKeys now) =
      (c.heldAlong keys).filter fun held => !(c.listed keys).isExpired now held := by
    rw [heldAlong_congr fun key hm => hheld key (by simpa using (List.mem_filter.1 hm).2)]
    refine heldAlong_filter fun key held hk => ?_
    rw [decide_not, decide_mem_expiredKeys hk]
  refine ⟨hcount, ?_⟩
  simp only [Cache.purge, Recency.purge]
  refine ⟨_, harranged.count _, ?_⟩
  refine (listed_count hfigures _).trans ?_
  rw [hkept, hcount]; rfl

theorem Represents.invalidate (h : Represents c r) : Represents c.invalidate r.invalidate := by
  obtain ⟨keys, ha, rfl⟩ := h
  refine ⟨[], ⟨⟨List.nodup_nil, trivial, rfl, rfl⟩, ?_, ?_, Nat.zero_le _⟩, rfl⟩
  · intro key
    simp [heldAt, Cache.invalidate]
  · intro quantity key
    simp [heldAt, Cache.invalidate]

end Purge

/-! ## Runs -/

/-- What one sees after a command: the reply, the figures and the quantities in order. -/
structure Sight where
  reply : Reply
  metrics : Metrics
  order : List Int
deriving DecidableEq

/-- What one sees while commands run. -/
def trace (c : Cache) : List Command → List Sight
  | [] => []
  | command :: rest =>
    let (reply, c) := c.apply command
    ⟨reply, c.metrics, c.recencyOrder⟩ :: c.trace rest

end Cache

namespace Recency

/-- The counters with the number of entries and the capacity. -/
def metrics (r : Recency) : Metrics :=
  { r.counters with size := r.held.length, capacity := r.capacity }

/-- What one sees while commands run on the list. -/
def trace (r : Recency) : List Cache.Command → List Cache.Sight
  | [] => []
  | command :: rest =>
    let (reply, r) := r.apply command
    ⟨reply, r.metrics, r.held.map Held.quantity⟩ :: r.trace rest

end Recency

namespace Cache

variable {c : Cache} {r : Recency}

theorem Represents.metrics_eq (h : Represents c r) : c.metrics = r.metrics := by
  have hsize := h.size_eq
  obtain ⟨keys, -, rfl⟩ := h
  rw [metrics, Recency.metrics, hsize]; rfl

/-- One command on both sides. -/
theorem Represents.apply (h : Represents c r) (command : Command) :
    (c.apply command).1 = (r.apply command).1 ∧
      Represents (c.apply command).2 (r.apply command).2 := by
  cases command with
  | get quantity now =>
    obtain ⟨hfound, hnext⟩ := h.get quantity now
    exact ⟨congrArg Reply.found hfound, hnext⟩
  | set quantity shipment now => exact ⟨rfl, h.set quantity shipment now⟩
  | purge now =>
    obtain ⟨hcount, hnext⟩ := h.purge now
    exact ⟨congrArg Reply.purged hcount, hnext⟩
  | invalidate => exact ⟨rfl, h.invalidate⟩

theorem Represents.trace_eq (h : Represents c r) :
    ∀ commands, c.trace commands = r.trace commands := by
  intro commands
  induction commands generalizing c r with
  | nil => rfl
  | cons command rest ih =>
    obtain ⟨hreply, hnext⟩ := h.apply command
    simp only [Cache.trace, Recency.trace]
    rw [hreply, hnext.metrics_eq, hnext.recencyOrder_eq, ih hnext]

/-- **The cache refines the list**: both show the same after every command of every run. -/
theorem trace_eq_recency (capacity timeToLive : Nat) (commands : List Command) :
    (empty capacity timeToLive).trace commands =
      (Recency.empty capacity timeToLive).trace commands :=
  (represents_empty capacity timeToLive).trace_eq commands

end Cache
end PackPlan
