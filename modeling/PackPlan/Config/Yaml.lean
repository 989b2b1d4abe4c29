import PackPlan.Config
import PackPlan.Yaml.Reader

/-!
# PackPlan.Config.Yaml

Settings in YAML. Each level is a mapping, which may name its fields in any order and no others. What
is not given takes its default, and so does a level that is left empty.
-/

namespace PackPlan

open Document

def Limits.yamlRecord : Yaml.Record Draft Limits where
  title := title
  fields := [
    .plain "max_ceiling" (fun d => d.maxCeiling.isSome) (Yaml.count "u64") fun d n =>
      { d with maxCeiling := some n }]
  blank := {}
  complete := Draft.complete

def CacheConfig.yamlRecord : Yaml.Record Draft CacheConfig where
  title := title
  fields := [
    .plain "max_capacity" (fun d => d.maxCapacity.isSome) (Yaml.count "usize") fun d n =>
      { d with maxCapacity := some n },
    .plain "ttl_seconds" (fun d => d.ttlSeconds.isSome) (Yaml.count "u64") fun d n =>
      { d with ttlSeconds := some n }]
  blank := {}
  complete := Draft.complete

namespace Config

/-- A list of sizes, and the set made of it. A list that is refused has no place of its own. -/
def sizesReader : Yaml.Reader SizeSet := fun d path n =>
  match Yaml.list Yaml.quantity d path n with
  | .error e => .error e
  | .ok sizes => (SizeSet.ofList sizes).mapError fun e => ⟨.sizes e, none⟩

def yamlRecord : Yaml.Record Draft Config where
  title := title
  fields := [
    .plain "default_sizes" (fun d => d.defaultSizes.isSome) sizesReader fun d s =>
      { d with defaultSizes := some s },
    .plain "cache" (fun d => d.cache.isSome) CacheConfig.yamlRecord.read fun d c =>
      { d with cache := some c },
    .plain "limits" (fun d => d.limits.isSome) Limits.yamlRecord.read fun d l =>
      { d with limits := some l }]
  blank := {}
  complete := Draft.complete

def ofYaml (text : String) : Except Yaml.Failure Config := yamlRecord.decode text

def failureCause : Yaml.Failure → String
  | .malformed => "the text is not one YAML document"
  | .data trouble => trouble.message

def failureMessage (f : Yaml.Failure) : String :=
  "failed to parse configuration: " ++ failureCause f

end Config
end PackPlan
