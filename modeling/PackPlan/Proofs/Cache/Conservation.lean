import PackPlan.Proofs.Cache.Run

/-!
# PackPlan.Proofs.Cache.Conservation

Where the entries of a cache go. Each one that was inserted is still held, or it went through one of
four doors: to make room, found too old by a lookup, swept as too old, or with all others. The
counters of the first three and what invalidations clear add up to the insertions, after every run
(`conserved_after`), and the other counters are the numbers of lookups, stores and invalidations.

`Adds` is what one turn adds to the figures, proved for each kind of command from what it does to the
list behind the cache. Its equation for the entries is about both sides at once: an entry that comes
or goes changes the length of the list and one counter.
-/

namespace PackPlan
namespace Cache

@[simp] def Command.isGet : Command → Bool
  | .get .. => true
  | _ => false

@[simp] def Command.isSet : Command → Bool
  | .set .. => true
  | _ => false

namespace Turn

/-- A lookup that finds an entry, but one that has reached the time to live. -/
def meetsExpired (t : Turn) : Bool :=
  match t.command with
  | .get quantity now =>
    (t.before.find? quantity).any fun e => t.before.timeToLive ≤ now - e.created
  | _ => false

/-- The number that a sweep gives. -/
def purged (t : Turn) : Nat :=
  match t.reply with
  | .purged count => count
  | _ => 0

/-- The number of entries that an invalidation finds. -/
def cleared (t : Turn) : Nat := if t.command = .invalidate then t.before.size else 0

end Turn

/-- The figures of a cache are what the turns of its run add up to. -/
structure Conserved (capacity : Nat) (turns : List Turn) (m : Metrics) : Prop where
  lookups : m.hits + m.misses = turns.countP fun t => t.command.isGet
  stores : m.insertions + m.updates =
    if capacity = 0 then 0 else turns.countP fun t => t.command.isSet
  entries : m.insertions = m.size + m.evictions + m.expirations + (turns.map Turn.cleared).sum
  expirations : m.expirations = turns.countP Turn.meetsExpired + (turns.map Turn.purged).sum
  invalidations : m.invalidations = turns.countP fun t => t.command = .invalidate
  size_le : m.size ≤ capacity

/-- What one turn adds. -/
structure Adds (t : Turn) (m m' : Metrics) : Prop where
  lookups : m'.hits + m'.misses = m.hits + m.misses + if t.command.isGet then 1 else 0
  stores : m'.insertions + m'.updates =
    m.insertions + m.updates + if m.capacity = 0 then 0 else if t.command.isSet then 1 else 0
  entries : m'.insertions + (m.size + m.evictions + m.expirations) =
    m.insertions + (m'.size + m'.evictions + m'.expirations + t.cleared)
  expirations : m'.expirations = m.expirations + (if t.meetsExpired then 1 else 0) + t.purged
  invalidations : m'.invalidations = m.invalidations + if t.command = .invalidate then 1 else 0

section Turns

variable {c : Cache} {r : Recency} {capacity : Nat} {turns : List Turn} {t : Turn} {m m' : Metrics}

theorem Represents.meetsExpired_get (h : Represents c r) (quantity : Int) (now : Nat) :
    Turn.meetsExpired ⟨c, .get quantity now⟩ = (r.find? quantity).any (r.isExpired now) := by
  rw [← h.map_find?, Option.any_map, Turn.meetsExpired, h.timeToLive_eq]; rfl

theorem Represents.adds_get (h : Represents c r) (quantity : Int) (now : Nat) :
    Adds ⟨c, .get quantity now⟩ r.metrics (r.get quantity now).2.metrics := by
  have hexpired := h.meetsExpired_get quantity now
  have hpurged : Turn.purged ⟨c, .get quantity now⟩ = 0 := rfl
  have hcleared : Turn.cleared ⟨c, .get quantity now⟩ = 0 := rfl
  cases hf : r.find? quantity with
  | none =>
    rw [Recency.get_of_absent hf]
    constructor <;> simp [Recency.metrics, hexpired, hpurged, hcleared, hf]
    omega
  | some found =>
    have hlength := h.tidy.length_others hf
    by_cases hold : r.isExpired now found = true
    · -- the entry that goes is the one that the counter gains
      rw [Recency.get_of_expired hf hold]
      constructor <;> simp [Recency.metrics, hexpired, hpurged, hcleared, hf, hold] <;> omega
    · rw [Recency.get_of_fresh hf hold]
      constructor <;> simp [Recency.metrics, hexpired, hpurged, hcleared, hf, hold] <;> omega

theorem adds_set (ht : r.Tidy) (c : Cache) (quantity : Int) (shipment : Shipment) (now : Nat) :
    Adds ⟨c, .set quantity shipment now⟩ r.metrics (r.set quantity shipment now).metrics := by
  have hexpired : Turn.meetsExpired ⟨c, .set quantity shipment now⟩ = false := rfl
  have hpurged : Turn.purged ⟨c, .set quantity shipment now⟩ = 0 := rfl
  have hcleared : Turn.cleared ⟨c, .set quantity shipment now⟩ = 0 := rfl
  have hbound := ht.bounded
  by_cases hc : r.capacity = 0
  · rw [Recency.set_of_disabled hc]
    constructor <;> simp [Recency.metrics, hexpired, hpurged, hcleared, hc]
  cases hf : r.find? quantity with
  | some found =>
    have hlength := ht.length_others hf
    rw [Recency.set_of_held hc hf]
    constructor <;> simp [Recency.metrics, hexpired, hpurged, hcleared, hc] <;> omega
  | none =>
    rw [Recency.set_of_new hc hf]
    by_cases hfull : r.capacity ≤ r.held.length
    · constructor <;> simp [Recency.metrics, hexpired, hpurged, hcleared, hc, hfull] <;> omega
    · constructor <;> simp [Recency.metrics, hexpired, hpurged, hcleared, hc, hfull] <;> omega

theorem Represents.adds_purge (h : Represents c r) (now : Nat) :
    Adds ⟨c, .purge now⟩ r.metrics (r.purge now).2.metrics := by
  have hexpired : Turn.meetsExpired ⟨c, .purge now⟩ = false := rfl
  have hpurged : Turn.purged ⟨c, .purge now⟩ = (r.purge now).1 := (h.purge now).1
  have hcleared : Turn.cleared ⟨c, .purge now⟩ = 0 := rfl
  have hlength := r.held.length_eq_length_filter_add (r.isExpired now)
  constructor <;> simp [Recency.metrics, Recency.purge, hexpired, hpurged, hcleared]
  omega

theorem Represents.adds_invalidate (h : Represents c r) :
    Adds ⟨c, .invalidate⟩ r.metrics r.invalidate.metrics := by
  have hexpired : Turn.meetsExpired ⟨c, .invalidate⟩ = false := rfl
  have hpurged : Turn.purged ⟨c, .invalidate⟩ = 0 := rfl
  have hcleared : Turn.cleared ⟨c, .invalidate⟩ = r.held.length := h.size_eq
  constructor <;> simp [Recency.metrics, Recency.invalidate, hexpired, hpurged, hcleared]
  omega

theorem Represents.adds (h : Represents c r) (command : Command) :
    Adds ⟨c, command⟩ r.metrics (r.apply command).2.metrics := by
  cases command with
  | get quantity now => exact h.adds_get quantity now
  | set quantity shipment now => exact adds_set h.tidy c quantity shipment now
  | purge now => exact h.adds_purge now
  | invalidate => exact h.adds_invalidate

theorem Conserved.concat (h : Conserved capacity turns m) (ha : Adds t m m')
    (hc : m.capacity = capacity) (hle : m'.size ≤ capacity) :
    Conserved capacity (turns ++ [t]) m' := by
  constructor
  · rw [ha.lookups, h.lookups, List.countP_append, List.countP_singleton]
  · rw [ha.stores, h.stores, hc, List.countP_append, List.countP_singleton]
    split <;> rfl
  · have hentries := ha.entries
    rw [List.map_append, List.sum_append, List.map_singleton, List.sum_singleton]
    rw [h.entries] at hentries
    omega
  · rw [ha.expirations, h.expirations, List.countP_append, List.map_append, List.sum_append,
      List.countP_singleton, List.map_singleton, List.sum_singleton]
    omega
  · rw [ha.invalidations, h.invalidations, List.countP_append, List.countP_singleton]
    simp
  · exact hle

/-- No counter goes beyond the number of turns. -/
theorem Conserved.counters_le (h : Conserved capacity turns m) :
    ∀ n ∈ [m.hits, m.misses, m.expirations, m.insertions, m.updates, m.evictions, m.invalidations],
      n ≤ turns.length := by
  have hlookups := h.lookups
  have hstores := h.stores
  have hentries := h.entries
  have hinvalidations := h.invalidations
  have hgets : turns.countP (fun t => t.command.isGet) ≤ turns.length := List.countP_le_length
  have hsets : turns.countP (fun t => t.command.isSet) ≤ turns.length := List.countP_le_length
  have hclears : turns.countP (fun t => t.command = .invalidate) ≤ turns.length :=
    List.countP_le_length
  have hstored : m.insertions + m.updates ≤ turns.length := by
    rw [hstores]
    split <;> omega
  intro n hn
  simp only [List.mem_cons, List.not_mem_nil, or_false] at hn
  omega

end Turns

theorem length_turns (c : Cache) (commands : List Command) :
    (c.turns commands).length = commands.length := by
  induction commands generalizing c with
  | nil => rfl
  | cons command rest ih => rw [turns, List.length_cons, ih, List.length_cons]

/-- **No entry is lost or counted twice.** After every run, whatever its times, the counters of the
cache are what the turns of the run add up to, and none goes beyond the number of commands, so that
64 bits hold them all in any run of fewer than 2^64. -/
theorem conserved_after (capacity timeToLive : Nat) (commands : List Command) :
    let m := ((empty capacity timeToLive).after commands).metrics
    Conserved capacity ((empty capacity timeToLive).turns commands) m ∧
      ∀ n ∈ [m.hits, m.misses, m.expirations, m.insertions, m.updates, m.evictions,
        m.invalidations], n ≤ commands.length := by
  suffices h : Conserved capacity ((empty capacity timeToLive).turns commands)
      ((empty capacity timeToLive).after commands).metrics by
    intro m
    rw [← length_turns (empty capacity timeToLive) commands]
    exact ⟨h, h.counters_le⟩
  induction commands using List.reverseRecOn with
  | nil =>
    rw [((represents_after capacity timeToLive []).metrics_eq)]
    refine ⟨rfl, ?_, rfl, rfl, rfl, Nat.zero_le _⟩
    split <;> rfl
  | append_singleton commands command ih =>
    have hr := represents_after capacity timeToLive commands
    have hnext := (hr.apply command).2
    have hcapacity : ((Recency.empty capacity timeToLive).after commands).capacity = capacity :=
      (Recency.bounds_after _ commands).1
    have hle := hnext.tidy.bounded
    rw [(Recency.bounds_apply _ command).1, hcapacity] at hle
    rw [hr.metrics_eq] at ih
    rw [turns_concat, after_concat, hnext.metrics_eq]
    exact ih.concat (hr.adds command) hcapacity hle

end Cache
end PackPlan
