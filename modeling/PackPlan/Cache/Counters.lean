/-!
# PackPlan.Cache.Counters

What a cache counts while it is used, and the figures it reports.
-/

namespace PackPlan

structure Counters where
  /-- Lookups that found a shipment. -/
  hits : Nat := 0
  /-- Lookups that found none, or only an expired one. -/
  misses : Nat := 0
  /-- Entries dropped because they were too old. -/
  expirations : Nat := 0
  /-- Quantities stored that were not there. -/
  insertions : Nat := 0
  /-- Quantities stored again while they were there. -/
  updates : Nat := 0
  /-- Entries dropped to make room. -/
  evictions : Nat := 0
  /-- Times everything was dropped at once. -/
  invalidations : Nat := 0
deriving DecidableEq, Repr, Inhabited

/-- The counters with the number of entries and the most there may be. -/
structure Metrics extends Counters where
  size : Nat
  capacity : Nat
deriving DecidableEq, Repr

namespace Counters

def lookups (c : Counters) : Nat := c.hits + c.misses

/-- The share of lookups that found a shipment, zero before the first. -/
def hitRatio (c : Counters) : Float :=
  if c.lookups = 0 then 0 else Float.ofNat c.hits / Float.ofNat c.lookups

end Counters
end PackPlan
