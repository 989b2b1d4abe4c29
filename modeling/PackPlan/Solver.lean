import PackPlan.Shipment
import PackPlan.SizeSet
import PackPlan.Solver.Walk

/-!
# PackPlan.Solver

Choosing the packs for an order: the smallest total that covers the quantity, with the fewest packs
that make up this total. The search goes up to a ceiling, the quantity plus the largest size less
one, since rounding up to a whole number of the largest size never goes beyond it.
-/

namespace PackPlan

/-- The bound on the search, checked before any table is made. -/
structure Limits where
  maxCeiling : Nat := 10000000
deriving DecidableEq, Repr, Inhabited

namespace Solver

/-- The search ceiling for a quantity and a largest size, if it is within the limit. A negative
quantity, and a ceiling that 64 bits do not hold, count as the largest ceiling. -/
def ceiling (limits : Limits) (quantity : Int) (largest : Nat) : Except SolverError Nat :=
  let sum := quantity.toNat + largest
  if quantity < 0 ∨ maxCount < sum ∨ sum = 0 then
    .error (.beyondLimit quantity maxCount limits.maxCeiling)
  else if limits.maxCeiling < sum - 1 then
    .error (.beyondLimit quantity (sum - 1) limits.maxCeiling)
  else .ok (sum - 1)

/-- The sizes that are used at all, each with its number of packs. -/
def allocations (sizes counts : List Nat) : List Allocation :=
  ((sizes.zip counts).filter fun p => 0 < p.2).map fun p => ⟨p.1, p.2⟩

def shipment (table : Table) (quantity : Int) (sizes : List Nat) : Except SolverError Shipment :=
  match table.firstFrom? quantity.toNat with
  | none => .error (.fault .noTotal)
  | some total =>
    match table.reconstruct sizes total with
    | .finished counts => .ok ⟨quantity, total, allocations sizes counts⟩
    | .broken f => .error (.fault f)
    | .endless => .error .endless

/-- The shipment for a quantity and a list of sizes, the first of which counts as the largest. -/
def solveList (limits : Limits) (quantity : Int) (sizes : List Nat) : Except SolverError Shipment :=
  if quantity ≤ 0 then .ok (.empty quantity)
  else
    match sizes with
    | [] => .error .noSizes
    | largest :: _ =>
      match ceiling limits quantity largest with
      | .error e => .error e
      | .ok ceiling =>
        match Table.build sizes ceiling with
        | .error f => .error (.fault f)
        | .ok table => shipment table quantity sizes

def solve (limits : Limits) (quantity : Int) (sizes : SizeSet) : Except SolverError Shipment :=
  solveList limits quantity sizes.toList

end Solver
end PackPlan
