import PackPlan.Proofs.Cache.Held

/-!
# PackPlan.Proofs.Cache.Run

Caches and lists after a run of commands. A run of a cache is a run of the list that it behaves like
(`Represents.after`), whose entries, bounds and evictions are those of the cache (`map_chain`,
`map_find?`, `holds_iff`, `evicted_eq`). So a statement about all states that a cache gets into is
proved of lists, one command at a time, from the front of the run to its end (`after_concat`).

What happens in a run is read off its turns, the commands each with the cache it is given to.
-/

namespace PackPlan
namespace Cache

/-- The cache after some commands. -/
def after (c : Cache) (commands : List Command) : Cache :=
  commands.foldl (fun c command => (c.apply command).2) c

/-- The entry that the index leads to, however old. -/
def find? (c : Cache) (quantity : Int) : Option Entry := c.index[quantity]?.bind c.entries.get?

/-- The quantity is stored, whether its entry is too old or not. -/
def Holds (c : Cache) (quantity : Int) : Prop := (c.find? quantity).isSome = true

/-- A command and the cache it is given to. -/
structure Turn where
  before : Cache
  command : Command

def Turn.reply (t : Turn) : Reply := (t.before.apply t.command).1

def turns (c : Cache) : List Command → List Turn
  | [] => []
  | command :: rest => ⟨c, command⟩ :: (c.apply command).2.turns rest

theorem after_append (c : Cache) (earlier later : List Command) :
    c.after (earlier ++ later) = (c.after earlier).after later := List.foldl_append

theorem after_concat (c : Cache) (commands : List Command) (command : Command) :
    c.after (commands ++ [command]) = ((c.after commands).apply command).2 := by
  rw [after_append]; rfl

theorem turns_append (c : Cache) (earlier later : List Command) :
    c.turns (earlier ++ later) = c.turns earlier ++ (c.after earlier).turns later := by
  induction earlier generalizing c with
  | nil => rfl
  | cons command rest ih =>
    rw [List.cons_append, turns, turns, ih, List.cons_append]; rfl

theorem turns_concat (c : Cache) (commands : List Command) (command : Command) :
    c.turns (commands ++ [command]) = c.turns commands ++ [⟨c.after commands, command⟩] :=
  turns_append c commands [command]

end Cache

namespace Recency

/-- The list after some commands. -/
def after (r : Recency) (commands : List Cache.Command) : Recency :=
  commands.foldl (fun r command => (r.apply command).2) r

variable {r : Recency}

theorem after_concat (r : Recency) (commands : List Cache.Command) (command : Cache.Command) :
    r.after (commands ++ [command]) = ((r.after commands).apply command).2 := by
  rw [after, List.foldl_append]; rfl

theorem bounds_after (r : Recency) (commands : List Cache.Command) :
    (r.after commands).capacity = r.capacity ∧ (r.after commands).timeToLive = r.timeToLive := by
  induction commands using List.reverseRecOn with
  | nil => exact ⟨rfl, rfl⟩
  | append_singleton commands command ih =>
    obtain ⟨hcapacity, httl⟩ := bounds_apply (r.after commands) command
    rw [after_concat]
    exact ⟨hcapacity.trans ih.1, httl.trans ih.2⟩

end Recency

namespace Cache

section Behind

variable {c : Cache} {r : Recency} {quantity : Int}

theorem Represents.after (h : Represents c r) (commands : List Command) :
    Represents (c.after commands) (r.after commands) := by
  induction commands using List.reverseRecOn with
  | nil => exact h
  | append_singleton commands command ih =>
    rw [Cache.after_concat, Recency.after_concat]
    exact (ih.apply command).2

theorem represents_after (capacity timeToLive : Nat) (commands : List Command) :
    Represents ((empty capacity timeToLive).after commands)
      ((Recency.empty capacity timeToLive).after commands) :=
  (represents_empty capacity timeToLive).after commands

theorem Represents.tidy (h : Represents c r) : r.Tidy := by
  obtain ⟨keys, ha, rfl⟩ := h
  refine ⟨ha.nodup_quantities, ?_⟩
  show (c.heldAlong keys).length ≤ c.capacity
  rw [ha.length_heldAlong]
  exact ha.bounded

theorem Represents.capacity_eq (h : Represents c r) : c.capacity = r.capacity := by
  obtain ⟨keys, -, rfl⟩ := h; rfl

theorem Represents.timeToLive_eq (h : Represents c r) : c.timeToLive = r.timeToLive := by
  obtain ⟨keys, -, rfl⟩ := h; rfl

theorem Represents.counters_eq (h : Represents c r) : c.counters = r.counters := by
  obtain ⟨keys, -, rfl⟩ := h; rfl

theorem Represents.map_chain (h : Represents c r) : c.chain.map Entry.toHeld = r.held := by
  obtain ⟨keys, ha, rfl⟩ := h
  exact ha.map_chain

/-- The index leads to what a search of the list finds. -/
theorem Represents.map_find? (h : Represents c r) (quantity : Int) :
    (c.find? quantity).map Entry.toHeld = r.find? quantity := by
  obtain ⟨keys, ha, rfl⟩ := h
  rw [find?]
  cases hi : c.index[quantity]? with
  | none => rw [Recency.find?_eq_none (ha.quantity_ne_of_index hi)]; rfl
  | some key =>
    obtain ⟨xs, ys, held, -, hk, -, hfind, -⟩ := ha.split_of_index hi
    rw [hfind, ← hk]; rfl

theorem Represents.holds_iff (h : Represents c r) :
    c.Holds quantity ↔ quantity ∈ r.held.map Held.quantity := by
  rw [Holds, ← h.tidy.find?_isSome, ← h.map_find? quantity, Option.isSome_map]

theorem Represents.mem_held (h : Represents c r) {key : Nat} {e : Entry}
    (he : c.entries.get? key = some e) : e.toHeld ∈ r.held := by
  obtain ⟨keys, ha, rfl⟩ := h
  have hk : c.heldAt key = some e.toHeld := by rw [heldAt, he]; rfl
  exact List.mem_filterMap.2 ⟨key, (ha.mem_iff key).2 (by rw [hk]; rfl), hk⟩

/-- A set drops what its list says. -/
theorem Represents.evicted_eq (h : Represents c r) (quantity : Int) (shipment : Shipment)
    (now : Nat) : (c.set quantity shipment now).1 = r.evicted quantity := by
  have hfound := h.map_find? quantity
  obtain ⟨keys, ha, rfl⟩ := h
  have hlength : (c.listed keys).held.length = keys.length := ha.length_heldAlong
  have hcapacity : (c.listed keys).capacity = c.capacity := rfl
  rw [Cache.set, Recency.evicted, hcapacity, hlength, ← hfound]
  by_cases hc : c.capacity = 0
  · rw [if_pos hc, if_pos (.inl hc)]
  rw [if_neg hc, find?]
  cases hi : c.index[quantity]? with
  | some key =>
    obtain ⟨-, held, hk, -⟩ := ha.mem_of_index hi
    have hentry : (((some key).bind c.entries.get?).map Entry.toHeld).isSome = true := by
      rw [Option.bind_some, ← heldAt, hk]; rfl
    rw [if_pos (.inr (.inl hentry))]
  | none =>
    simp only
    by_cases hfull : c.capacity ≤ keys.length
    · rcases List.eq_nil_or_concat keys with rfl | ⟨xs, key, hkeys⟩
      · exact absurd (Nat.le_zero.1 hfull) hc
      rw [List.concat_eq_append] at hkeys
      subst hkeys
      have hmem : key ∈ xs ++ [key] := by simp
      obtain ⟨held, hk⟩ := ha.exists_held hmem
      have hsize : c.index.size = xs.length + 1 := by
        rw [ha.size_index, List.length_append, List.length_singleton]
      have hlast : (c.listed (xs ++ [key])).held = c.heldAlong xs ++ [held] := heldAlong_split hk
      have hlong : c.capacity ≤ xs.length + 1 := by simpa using hfull
      rw [hsize, ha.makeRoom_full hfull, hk, hlast, List.getLast?_concat]
      simp [hc, hlong]
    · have hroom : c.index.size < c.capacity := by rw [ha.size_index]; omega
      rw [makeRoom_of_lt hroom, if_pos (.inr (.inr (by omega)))]

end Behind
end Cache
end PackPlan
