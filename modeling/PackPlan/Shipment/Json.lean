import PackPlan.Json.Reader
import PackPlan.Shipment

/-!
# PackPlan.Shipment.Json

Shipments in JSON. Both a shipment and an allocation are read from an object, whose other members
are passed over, or from the list of their fields. No field may be missing.
-/

namespace PackPlan

open Document

structure Allocation.Draft where
  size : Option Nat
  count : Option Nat
deriving DecidableEq, Repr

namespace Allocation

def title : String := "struct PackAllocation"

def jsonRecord : Json.Record Draft Allocation where
  title := title
  fields := [
    .plain "size" (fun d => d.size.isSome) (Json.count "u64") fun d n => { d with size := some n },
    .plain "count" (fun d => d.count.isSome) (Json.count "u64") fun d n =>
      { d with count := some n }]
  strict := false
  blank := ⟨none, none⟩
  ofObject := fun d =>
    match d.size, d.count with
    | some size, some count => .ok ⟨size, count⟩
    | none, _ => .error (.missingField "size")
    | _, none => .error (.missingField "count")
  ofList := fun n d =>
    match d.size, d.count with
    | some size, some count => .ok ⟨size, count⟩
    | _, _ => .error (.tooShort n (title ++ " with 2 elements"))

end Allocation

structure Shipment.Draft where
  requested : Option Int
  total : Option Nat
  packs : Option (List Allocation)
deriving DecidableEq, Repr

namespace Shipment

def title : String := "struct SolveResult"

def jsonRecord : Json.Record Draft Shipment where
  title := title
  fields := [
    .plain "requested" (fun d => d.requested.isSome) Json.quantity fun d q =>
      { d with requested := some q },
    .plain "total" (fun d => d.total.isSome) (Json.count "u64") fun d n =>
      { d with total := some n },
    .plain "packs" (fun d => d.packs.isSome) (Json.list Allocation.jsonRecord.read) fun d packs =>
      { d with packs := some packs }]
  strict := false
  blank := ⟨none, none, none⟩
  ofObject := fun d =>
    match d.requested, d.total, d.packs with
    | some requested, some total, some packs => .ok ⟨requested, total, packs⟩
    | none, _, _ => .error (.missingField "requested")
    | _, none, _ => .error (.missingField "total")
    | _, _, none => .error (.missingField "packs")
  ofList := fun n d =>
    match d.requested, d.total, d.packs with
    | some requested, some total, some packs => .ok ⟨requested, total, packs⟩
    | _, _, _ => .error (.tooShort n (title ++ " with 3 elements"))

def ofJson (text : String) : Except Json.Failure Shipment := Json.decode jsonRecord.read text

end Shipment
end PackPlan
