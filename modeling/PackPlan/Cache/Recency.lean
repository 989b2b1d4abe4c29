import PackPlan.Cache

/-!
# PackPlan.Cache.Recency

The behaviour of a cache said with a plain list: the entries from the most to the least recently
used. There are no slots, links or index here, so what an operation does can be read off its
definition.
-/

namespace PackPlan

structure Held where
  quantity : Int
  shipment : Shipment
  created : Nat
deriving DecidableEq, Repr

/-- The entries, most recently used first. -/
structure Recency where
  held : List Held
  capacity : Nat
  timeToLive : Nat
  counters : Counters
deriving DecidableEq, Repr

namespace Recency

def empty (capacity timeToLive : Nat) : Recency := ⟨[], capacity, timeToLive, {}⟩

/-- Whether an entry has reached the time to live. -/
def isExpired (r : Recency) (now : Nat) (h : Held) : Bool := r.timeToLive ≤ now - h.created

def find? (r : Recency) (quantity : Int) : Option Held :=
  r.held.find? fun h => h.quantity == quantity

def others (r : Recency) (quantity : Int) : List Held :=
  r.held.filter fun h => h.quantity != quantity

def get (r : Recency) (quantity : Int) (now : Nat) : Option Shipment × Recency :=
  match r.find? quantity with
  | none => (none, { r with counters := { r.counters with misses := r.counters.misses + 1 } })
  | some h =>
    if r.isExpired now h then
      (none, { r with
        held := r.others quantity
        counters := { r.counters with
          expirations := r.counters.expirations + 1
          misses := r.counters.misses + 1 } })
    else
      (some h.shipment, { r with
        held := h :: r.others quantity
        counters := { r.counters with hits := r.counters.hits + 1 } })

def set (r : Recency) (quantity : Int) (shipment : Shipment) (now : Nat) : Recency :=
  if r.capacity = 0 then r
  else
    match r.find? quantity with
    | some _ =>
      { r with
        held := ⟨quantity, shipment, now⟩ :: r.others quantity
        counters := { r.counters with updates := r.counters.updates + 1 } }
    | none =>
      let full := r.capacity ≤ r.held.length
      { r with
        held := ⟨quantity, shipment, now⟩ :: if full then r.held.dropLast else r.held
        counters := { r.counters with
          insertions := r.counters.insertions + 1
          evictions := r.counters.evictions + if full then 1 else 0 } }

def purge (r : Recency) (now : Nat) : Nat × Recency :=
  let expired := (r.held.filter (r.isExpired now)).length
  (expired, { r with
    held := r.held.filter fun h => !r.isExpired now h
    counters := { r.counters with expirations := r.counters.expirations + expired } })

def invalidate (r : Recency) : Recency :=
  { r with
    held := []
    counters := { r.counters with invalidations := r.counters.invalidations + 1 } }

def apply (r : Recency) : Cache.Command → Cache.Reply × Recency
  | .get quantity now => let (found, r) := r.get quantity now; (.found found, r)
  | .set quantity shipment now => (.stored, r.set quantity shipment now)
  | .purge now => let (count, r) := r.purge now; (.purged count, r)
  | .invalidate => (.invalidated, r.invalidate)

end Recency
end PackPlan
