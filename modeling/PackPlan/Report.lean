import PackPlan.Shipment
import PackPlan.Text.Grid

/-!
# PackPlan.Report

The report of a shipment, for a reader as a framed grid with a summary under it, for a program as
one line of JSON. `Report.writeWithin` writes to a buffer of limited size.
-/

namespace PackPlan

structure Report where
  requested : Int
  shipped : Nat
  surplus : Nat
  packCount : Nat
  packs : List Allocation
deriving DecidableEq, Repr

inductive Format where
  | table
  | json
deriving DecidableEq, Repr

/-- What did not fit the buffer. -/
inductive ReportError where
  /-- The text of the report, or the end of its line. -/
  | write
  /-- The JSON document itself. -/
  | encode
deriving DecidableEq, Repr

def ReportError.message : ReportError → String
  | .write => "failed to write report: failed to write whole buffer"
  | .encode => "failed to encode report: failed to write whole buffer"

namespace Report

def ofShipment (s : Shipment) : Report :=
  ⟨s.requested, s.total, s.surplus, s.packCount, s.packs⟩

def header : List (List Char) := ["Pack Size".toList, "Count".toList, "Units".toList]

def row (a : Allocation) : List (List Char) :=
  [(toString a.size).toList, (toString a.count).toList, (toString a.units).toList]

/-- The lines of the grid, or of what stands for it when there is nothing in it. -/
def bodyLines (r : Report) : List (List Char) :=
  if r.packs.isEmpty then [" Nothing to ship.".toList]
  else Text.gridLines header (r.packs.map row)

def summary (r : Report) : List (List Char × List Char) :=
  [(" Requested:".toList, (toString r.requested).toList),
    (" Shipped:".toList, (toString r.shipped).toList),
    (" Surplus:".toList, (toString r.surplus).toList),
    (" Packs:".toList, (toString r.packCount).toList)]

def widest (texts : List (List Char)) : Nat := (texts.map List.length).foldl max 0

/-- The lines of the summary: labels to the left, values to the right of their columns. -/
def summaryLines (r : Report) : List (List Char) :=
  let labelWidth := widest (r.summary.map Prod.fst)
  let valueWidth := widest (r.summary.map Prod.snd)
  r.summary.map fun (label, value) =>
    label.rightpad labelWidth ' ' ++ ' ' :: value.leftpad valueWidth ' '

/-- The report for a reader: an empty line, the grid, the summary. -/
def table (r : Report) : String :=
  String.ofList ((([] :: r.bodyLines) ++ r.summaryLines).flatMap fun line => line ++ ['\n'])

def document (r : Report) : String :=
  Json.object [("requested", toString r.requested), ("shipped", toString r.shipped),
    ("surplus", toString r.surplus), ("pack_count", toString r.packCount),
    ("packs", Json.array (r.packs.map Allocation.json))]

/-- The report for a program: the document on a line of its own. -/
def json (r : Report) : String := r.document ++ "\n"

def render (r : Report) : Format → String
  | .table => r.table
  | .json => r.json

/-- Writes the report to a buffer of so many bytes and gives the number of bytes left. -/
def writeWithin (r : Report) (format : Format) (bytes : Nat) : Except ReportError Nat :=
  if (r.render format).utf8ByteSize ≤ bytes then .ok (bytes - (r.render format).utf8ByteSize)
  else
    match format with
    | .table => .error .write
    | .json => if r.document.utf8ByteSize ≤ bytes then .error .write else .error .encode

end Report
end PackPlan
