/-!
# PackPlan.Solver.Error

Why a solver gives no shipment. Two causes are answers to the caller: there are no sizes, or the
search would go beyond the limit. A `Fault` is a contradiction inside a table, which no table that
was built for the same sizes shows.
-/

namespace PackPlan

/-- A contradiction between the cells of a table, or between a table and a list of sizes. -/
inductive Fault where
  /-- The table would need more cells than can be counted. -/
  | tableTooLong
  /-- The position of a size does not fit a cell. -/
  | positionTooLarge
  /-- No total from the quantity up to the ceiling can be made. -/
  | noTotal
  /-- A total on the way back has no recorded size. -/
  | noRecord
  /-- A recorded position is not one of the list of sizes. -/
  | badPosition
  /-- A recorded size is larger than what is left. -/
  | sizeTooLarge
  /-- The way back has another number of packs than its total records. -/
  | countDiffers
deriving DecidableEq, Repr

def Fault.message : Fault → String
  | .tableTooLong => "table length overflows usize"
  | .positionTooLarge => "pack size index does not fit the table"
  | .noTotal => "no reachable total within the search ceiling"
  | .noRecord => "reachable total has no recorded pack"
  | .badPosition => "recorded pack index is out of range"
  | .sizeTooLarge => "recorded pack is larger than the remaining total"
  | .countDiffers => "reconstructed pack count differs from the table minimum"

inductive SolverError where
  /-- There are no sizes to pack with. -/
  | noSizes
  /-- The search ceiling for a quantity is beyond the limit. -/
  | beyondLimit (quantity : Int) (ceiling limit : Nat)
  /-- A table contradicts itself. -/
  | fault (cause : Fault)
  /-- The way back through a table never ends, so there is no answer at all. -/
  | endless
deriving DecidableEq, Repr

def SolverError.message : SolverError → String
  | .noSizes => "invalid configuration: pack size set is empty"
  | .beyondLimit quantity ceiling limit =>
    "search ceiling " ++ toString ceiling ++ " for quantity " ++ toString quantity
      ++ " and the largest pack size exceeds the limit of " ++ toString limit
  | .fault cause => "solver invariant violated: " ++ cause.message
  | .endless => ""

end PackPlan
