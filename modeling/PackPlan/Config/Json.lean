import PackPlan.Config
import PackPlan.SizeSet.Reader

/-!
# PackPlan.Config.Json

Settings in JSON. Each level is an object, which may name its fields in any order and no others, or a
list of its first fields. What is not given takes its default.
-/

namespace PackPlan

open Document

def Limits.jsonRecord : Json.Record Draft Limits where
  title := title
  fields := [
    .plain "max_ceiling" (fun d => d.maxCeiling.isSome) (Json.count "u64") fun d n =>
      { d with maxCeiling := some n }]
  strict := true
  blank := {}
  ofObject := fun d => .ok d.complete
  ofList := fun _ d => .ok d.complete

def CacheConfig.jsonRecord : Json.Record Draft CacheConfig where
  title := title
  fields := [
    .plain "max_capacity" (fun d => d.maxCapacity.isSome) (Json.count "usize") fun d n =>
      { d with maxCapacity := some n },
    .plain "ttl_seconds" (fun d => d.ttlSeconds.isSome) (Json.count "u64") fun d n =>
      { d with ttlSeconds := some n }]
  strict := true
  blank := {}
  ofObject := fun d => .ok d.complete
  ofList := fun _ d => .ok d.complete

namespace Config

/-- The field of the default sizes, whose list may be refused after it is read. -/
def sizesField : Json.Field Draft where
  name := "default_sizes"
  given := fun d => d.defaultSizes.isSome
  read := fun d ts =>
    match SizeSet.jsonReader ts with
    | .error e => .error e
    | .ok (sizes, rest) =>
      .ok (sizes.map fun s => { d with defaultSizes := some s }, rest)

def jsonRecord : Json.Record Draft Config where
  title := title
  fields := [
    sizesField,
    .plain "cache" (fun d => d.cache.isSome) CacheConfig.jsonRecord.read fun d c =>
      { d with cache := some c },
    .plain "limits" (fun d => d.limits.isSome) Limits.jsonRecord.read fun d l =>
      { d with limits := some l }]
  strict := true
  blank := {}
  ofObject := fun d => .ok d.complete
  ofList := fun _ d => .ok d.complete

def ofJson (text : String) : Except Json.Failure Config := Json.decode jsonRecord.read text

end Config
end PackPlan
