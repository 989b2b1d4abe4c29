import PackPlan.Text.Quoted

/-!
# PackPlan.Log.Record

Log records: how important one is, which part of the program tells of it, and what it tells. A line
of a log is one JSON object.
-/

namespace PackPlan
namespace Log

/-- How important a record is, the most important first. -/
inductive Level where
  | error
  | warn
  | info
  | debug
  | trace
deriving DecidableEq, Repr

namespace Level

/-- How much a log tells that goes down to this level. -/
def verbosity : Level → Nat
  | error => 1
  | warn => 2
  | info => 3
  | debug => 4
  | trace => 5

def label : Level → String
  | error => "ERROR"
  | warn => "WARN"
  | info => "INFO"
  | debug => "DEBUG"
  | trace => "TRACE"

end Level

/-- The least important level that is told, if any is. -/
abbrev Threshold := Option Level

def Threshold.admits (threshold : Threshold) (level : Level) : Bool :=
  match threshold with
  | none => false
  | some least => level.verbosity ≤ least.verbosity

inductive Detail where
  | number (value : Int)
  | text (value : String)
  /-- How long something took. -/
  | elapsed
deriving DecidableEq, Repr

structure Record where
  level : Level
  /-- The part of the program, as a path. -/
  target : String
  message : String
  details : List (String × Detail)
deriving DecidableEq, Repr

namespace Record

def names (r : Record) : List String := "message" :: r.details.map Prod.fst

end Record
end Log
end PackPlan
