import PackPlan.Solver.Table

/-!
# PackPlan.Solver.Walk

The way back from a total to zero along the recorded choices. Each step takes the recorded size off
what is left and counts a pack of that size. A recorded size of zero takes nothing off, so from
there the walk stands still: it has no outcome, which is the value `Walk.endless`.
-/

namespace PackPlan

inductive Walk where
  /-- The number of packs at each position of the list of sizes. -/
  | finished (counts : List Nat)
  /-- The walk met a contradiction. -/
  | broken (fault : Fault)
  /-- The walk comes back to the same total for ever. -/
  | endless
deriving DecidableEq, Repr

namespace Table

/-- The position recorded at a total, the size there, and what is left after taking it off. -/
def step (t : Table) (sizes : List Nat) (total : Nat) : Except Fault (Nat × Nat) :=
  match t.choice? total with
  | none => .error .noRecord
  | some i =>
    match sizes[i]? with
    | none => .error .badPosition
    | some size => if size ≤ total then .ok (i, total - size) else .error .sizeTooLarge

/-- Walks back to zero, adding to the counts so far. -/
def walk (t : Table) (sizes : List Nat) (counts : List Nat) (total : Nat) : Walk :=
  if total = 0 then .finished counts
  else
    match t.step sizes total with
    | .error f => .broken f
    | .ok (i, left) =>
      if left < total then walk t sizes (counts.modify i (· + 1)) left else .endless
termination_by total

/-- The packs that the choices record for a total; they have to be as many as its count says. -/
def reconstruct (t : Table) (sizes : List Nat) (total : Nat) : Walk :=
  match t.walk sizes (List.replicate sizes.length 0) total with
  | .finished counts =>
    if t.minPacks? total = some (counts.foldr (· + ·) 0) then .finished counts else .broken .countDiffers
  | .broken f => .broken f
  | .endless => .endless

end Table
end PackPlan
