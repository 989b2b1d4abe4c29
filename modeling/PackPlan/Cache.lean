import Std.Data.HashMap
import PackPlan.Cache.Arena
import PackPlan.Cache.Counters
import PackPlan.Shipment

/-!
# PackPlan.Cache

A bounded store of shipments by quantity, whose entries grow old. Entries lie in an arena and are
chained from the most recently used (`head`) to the least (`tail`); an index leads from a quantity
to its slot. An entry whose age has reached the time to live counts as absent: it is dropped when it
is looked up, or when the whole store is swept.

Times are given with each operation, in milliseconds. They may run backwards, and an entry from the
future has age zero.
-/

namespace PackPlan

/-- A stored shipment and its neighbours in the chain. -/
structure Entry where
  quantity : Int
  shipment : Shipment
  created : Nat
  /-- The entry used next after this one. -/
  newer : Option Nat
  /-- The entry used last before this one. -/
  older : Option Nat
deriving DecidableEq, Repr

structure Cache where
  entries : Arena Entry
  index : Std.HashMap Int Nat
  head : Option Nat
  tail : Option Nat
  capacity : Nat
  timeToLive : Nat
  counters : Counters

namespace Cache

def empty (capacity timeToLive : Nat) : Cache where
  entries := .empty
  index := {}
  head := none
  tail := none
  capacity := capacity
  timeToLive := timeToLive
  counters := {}

/-- The number of entries, expired ones included. -/
def size (c : Cache) : Nat := c.entries.size

def isEmpty (c : Cache) : Bool := c.size == 0

/-- The counters with the number of entries and the capacity. -/
def metrics (c : Cache) : Metrics := { c.counters with size := c.size, capacity := c.capacity }

/-- Whether an entry has reached the time to live. -/
def isExpired (c : Cache) (now : Nat) (e : Entry) : Bool := c.timeToLive ≤ now - e.created

/-! ## The chain -/

/-- Lets `older` follow the entry under `newer`; without such an entry it becomes the head. -/
def setOlder (c : Cache) (newer older : Option Nat) : Cache :=
  match newer.filter fun key => (c.entries.get? key).isSome with
  | some key => { c with entries := c.entries.modify key fun e => { e with older := older } }
  | none => { c with head := older }

/-- Lets `newer` come before the entry under `older`; without such an entry it becomes the tail. -/
def setNewer (c : Cache) (older newer : Option Nat) : Cache :=
  match older.filter fun key => (c.entries.get? key).isSome with
  | some key => { c with entries := c.entries.modify key fun e => { e with newer := newer } }
  | none => { c with tail := newer }

/-- Takes an entry out of the chain and joins its neighbours. -/
def unlink (c : Cache) (key : Nat) : Cache :=
  match c.entries.get? key with
  | none => c
  | some e =>
    let alone := { c with
      entries := c.entries.modify key fun e => { e with newer := none, older := none } }
    (alone.setOlder e.newer e.older).setNewer e.older e.newer

/-- Puts an entry that is out of the chain at its head. -/
def pushFront (c : Cache) (key : Nat) : Cache :=
  let linked := { c with
    entries := c.entries.modify key fun e => { e with newer := none, older := c.head } }
  { linked.setNewer c.head (some key) with head := some key }

/-- Makes an entry the most recently used one. -/
def moveToFront (c : Cache) (key : Nat) : Cache :=
  if c.head = some key then c else (c.unlink key).pushFront key

/-- Drops an entry from the chain, the arena and the index. -/
def remove (c : Cache) (key : Nat) : Cache :=
  match c.entries.get? key with
  | none => c
  | some e =>
    let c := c.unlink key
    { c with entries := c.entries.remove key, index := c.index.erase e.quantity }

/-- The entries along the chain from a key on, at most so many. -/
def chainFrom (c : Cache) : Nat → Option Nat → List Entry
  | 0, _ => []
  | n + 1, key =>
    match key.bind c.entries.get? with
    | none => []
    | some e => e :: chainFrom c n e.older

/-- The entries from the most to the least recently used. -/
def chain (c : Cache) : List Entry := c.chainFrom c.size c.head

/-- The quantities from the most to the least recently used. -/
def recencyOrder (c : Cache) : List Int := c.chain.map Entry.quantity

/-! ## Operations -/

def count (c : Cache) (f : Counters → Counters) : Cache := { c with counters := f c.counters }

/-- Looks a quantity up. A hit makes its entry the most recently used; an expired entry is dropped. -/
def get (c : Cache) (quantity : Int) (now : Nat) : Option Shipment × Cache :=
  match c.index[quantity]? with
  | none => (none, c.count fun n => { n with misses := n.misses + 1 })
  | some key =>
    match (c.entries.get? key).filter fun e => !c.isExpired now e with
    | none =>
      (none, (c.remove key).count fun n =>
        { n with expirations := n.expirations + 1, misses := n.misses + 1 })
    | some e =>
      (some e.shipment, (c.moveToFront key).count fun n => { n with hits := n.hits + 1 })

/-- Drops least recently used entries until there is room for one more, in at most so many rounds,
and gives the quantities dropped. -/
def makeRoom : Nat → Cache → List Int × Cache
  | 0, c => ([], c)
  | n + 1, c =>
    if c.index.size < c.capacity then ([], c)
    else
      match c.tail with
      | none => ([], c)
      | some key =>
        let dropped := ((c.entries.get? key).map Entry.quantity).toList
        let (later, room) :=
          makeRoom n ((c.remove key).count fun n => { n with evictions := n.evictions + 1 })
        (dropped ++ later, room)

/-- Stores a shipment as the most recently used one and gives the quantities dropped to make room.
Nothing is stored when the capacity is zero. -/
def set (c : Cache) (quantity : Int) (shipment : Shipment) (now : Nat) : List Int × Cache :=
  if c.capacity = 0 then ([], c)
  else
    match c.index[quantity]? with
    | some key =>
      let replaced := { c with
        entries := c.entries.modify key fun e => { e with shipment := shipment, created := now } }
      ([], (replaced.moveToFront key).count fun n => { n with updates := n.updates + 1 })
    | none =>
      let (dropped, c) := makeRoom c.index.size c
      let key := c.entries.nextKey
      let stored := { c with
        entries := c.entries.insert ⟨quantity, shipment, now, none, none⟩
        index := c.index.insert quantity key }
      (dropped, (stored.pushFront key).count fun n => { n with insertions := n.insertions + 1 })

def invalidate (c : Cache) : Cache :=
  { c with
    entries := .empty
    index := {}
    head := none
    tail := none
    counters := { c.counters with invalidations := c.counters.invalidations + 1 } }

def expiredKeys (c : Cache) (now : Nat) : List Nat :=
  c.entries.keys.filter fun key => (c.entries.get? key).any (c.isExpired now)

def purge (c : Cache) (now : Nat) : Nat × Cache :=
  let expired := c.expiredKeys now
  (expired.length, (expired.foldl remove c).count fun n =>
    { n with expirations := n.expirations + expired.length })

/-! ## Runs -/

inductive Command where
  | get (quantity : Int) (now : Nat)
  | set (quantity : Int) (shipment : Shipment) (now : Nat)
  | purge (now : Nat)
  | invalidate
deriving DecidableEq, Repr

inductive Reply where
  | found (shipment : Option Shipment)
  | stored
  | purged (count : Nat)
  | invalidated
deriving DecidableEq, Repr

def apply (c : Cache) : Command → Reply × Cache
  | .get quantity now => let (found, c) := c.get quantity now; (.found found, c)
  | .set quantity shipment now => (.stored, (c.set quantity shipment now).2)
  | .purge now => let (count, c) := c.purge now; (.purged count, c)
  | .invalidate => (.invalidated, c.invalidate)

end Cache
end PackPlan
