import PackPlan.Json.Writer
import PackPlan.Numeral

/-!
# PackPlan.Shipment

What is shipped for an order: so many packs of each size. A shipment is a record of what was asked
for and what goes out; nothing here checks that the packs add up to the total, which is what a
solver is for.
-/

namespace PackPlan

structure Allocation where
  size : Nat
  count : Nat
deriving DecidableEq, Repr

namespace Allocation

/-- The units in these packs, or the largest count if there are more. -/
def units (a : Allocation) : Nat := clampCount (a.size * a.count)

def json (a : Allocation) : String :=
  Json.object [("size", toString a.size), ("count", toString a.count)]

end Allocation

/-- What was asked for, the units that go out, and the packs that hold them. -/
structure Shipment where
  requested : Int
  total : Nat
  packs : List Allocation
deriving DecidableEq, Repr

namespace Shipment

def empty (requested : Int) : Shipment := ⟨requested, 0, []⟩

def packCount (s : Shipment) : Nat := s.packs.foldr (fun a n => a.count + n) 0

/-- The units beyond what was asked for; all of them when less than nothing was. -/
def surplus (s : Shipment) : Nat := s.total - s.requested.toNat

/-- Whether no packs go out. -/
def isEmpty (s : Shipment) : Bool := s.packs.isEmpty

def packsJson (s : Shipment) : String := Json.array (s.packs.map Allocation.json)

def json (s : Shipment) : String :=
  Json.object [("requested", toString s.requested), ("total", toString s.total),
    ("packs", s.packsJson)]

@[simp] theorem packCount_empty (q : Int) : (empty q).packCount = 0 := rfl

@[simp] theorem isEmpty_empty (q : Int) : (empty q).isEmpty = true := rfl

/-- Nothing is shipped for an empty shipment, so nothing is left over. -/
@[simp] theorem surplus_empty (q : Int) : (empty q).surplus = 0 := by simp [empty, surplus]

end Shipment
end PackPlan
